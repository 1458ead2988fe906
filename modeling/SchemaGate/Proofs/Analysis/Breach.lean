import SchemaGate.Analysis.Findings
import SchemaGate.Proofs.Analysis.Matches
import SchemaGate.Proofs.Analysis.Members

/-!
# The rules for members

A breach is what a finding reports, without its wording and its file. `MemberBreach` is the table of
the rules for the members of one type, written as a relation between the two versions of the type.
The main statements are `mem_breaches_compareMembers`, which says that the comparison reports
exactly the breaches of the table, and `pairwise_breaches_compareMembers`, which gives their order.
-/

namespace SchemaGate

/-- What a finding reports. -/
structure Breach where
  kind : FindingKind
  typePath : String
  member : Option String := none
  number : Option Int := none
  expected : Option String := none
  actual : Option String := none
  deriving DecidableEq, Repr

/-- What a finding reports, without its wording and its file. -/
def Finding.breach (finding : Finding) : Breach :=
  ⟨finding.kind, finding.typePath, finding.member, finding.number, finding.expected,
    finding.actual⟩

namespace Breach

/-- A member of the baseline is gone and not both its number and its name are reserved. -/
def ofRemoval (terms : MemberTerms) (path : String) (member : Member) : Breach :=
  { kind := terms.removed, typePath := path, member := member.name, number := member.number }

/-- The number of a member of both versions may not be used. -/
def ofConflict (terms : MemberTerms) (path : String) (before after : Member) : Breach :=
  { kind := terms.conflict, typePath := path, member := after.name, number := after.number
    expected := toString before.number, actual := toString after.number }

/-- The number of a new member may not be used. -/
def ofNumberReuse (terms : MemberTerms) (path : String) (member : Member) : Breach :=
  { kind := terms.numberReuse, typePath := path, member := member.name, number := member.number }

/-- The name of a new member may not be used. -/
def ofNameReuse (path : String) (member : Member) : Breach :=
  { kind := .reservedNameReuse, typePath := path, member := member.name, number := member.number }

end Breach

/-- The step of the comparison in which a kind is reported: what is gone, what is kept, what is
new. -/
def FindingKind.step : FindingKind → Nat
  | removedType | removedField | removedEnumConstant => 0
  | tagConflict | valueConflict => 1
  | reservedTagReuse | reservedValueReuse | reservedNameReuse => 2

/-- One breach comes before another: by path, then by step, then by name, then the number before
the name. -/
def Breach.Precedes (a b : Breach) : Prop :=
  a.typePath < b.typePath ∨ a.typePath = b.typePath ∧
    (a.kind.step < b.kind.step ∨ a.kind.step = b.kind.step ∧
      ((∃ name ∈ a.member, ∃ other ∈ b.member, name < other) ∨
        a.member = b.member ∧ a.kind ≠ .reservedNameReuse ∧ b.kind = .reservedNameReuse))

/-- Within a step the breaches come in order of name. -/
theorem Breach.precedes_of_name_lt {a b : Breach} {name other : String}
    (hpath : a.typePath = b.typePath) (hstep : a.kind.step = b.kind.step)
    (hname : a.member = some name) (hother : b.member = some other) (hlt : name < other) :
    a.Precedes b :=
  .inr ⟨hpath, .inr ⟨hstep, .inl ⟨name, hname, other, hother, hlt⟩⟩⟩

/-- Of two breaches not each comes before the other. -/
theorem Breach.Precedes.asymm {a b : Breach} (h : a.Precedes b) : ¬b.Precedes a := by
  intro hback
  obtain hpath | ⟨hpath, h⟩ := h
  · obtain hback | ⟨hback, -⟩ := hback
    · exact String.lt_asymm hpath hback
    · exact String.lt_irrefl _ (hback ▸ hpath)
  obtain hback | ⟨-, hback⟩ := hback
  · exact String.lt_irrefl _ (hpath ▸ hback)
  obtain hstep | ⟨hstep, h⟩ := h
  · obtain hback | ⟨hback, -⟩ := hback
    · exact Nat.lt_asymm hstep hback
    · exact Nat.lt_irrefl _ (hback ▸ hstep)
  obtain hback | ⟨-, hback⟩ := hback
  · exact Nat.lt_irrefl _ (hstep ▸ hback)
  obtain ⟨name, hname, other, hother, hlt⟩ | ⟨hmember, hnumber, -⟩ := h
  · obtain ⟨first, hfirst, second, hsecond, hgt⟩ | ⟨hmember, -⟩ := hback
    · obtain rfl := Option.mem_unique hname hsecond
      obtain rfl := Option.mem_unique hother hfirst
      exact String.lt_asymm hlt hgt
    · obtain rfl := Option.mem_unique hname (hmember ▸ hother)
      exact String.lt_irrefl _ hlt
  · obtain ⟨first, hfirst, second, hsecond, hgt⟩ | ⟨-, -, hname⟩ := hback
    · obtain rfl := Option.mem_unique hsecond (hmember ▸ hfirst)
      exact String.lt_irrefl _ hgt
    · exact hnumber hname

/-- So lists of breaches in this order repeat nothing and are determined by what they hold. -/
instance Breach.asymm_precedes : Std.Asymm Breach.Precedes := ⟨fun _ _ h => h.asymm⟩

/-- The words for the members of a type of this kind. -/
def TypeDef.terms : TypeDef → MemberTerms
  | message _ => .field
  | enum _ => .constant

/-- The type as the rules for members see it. -/
def TypeDef.memberSet : TypeDef → MemberSet
  | message definition => definition.memberSet
  | enum definition => definition.memberSet

/-- The kinds of the terms belong to the steps in which they are used, and they are none of the
kinds that both types of members share. -/
structure MemberTerms.Ordered (terms : MemberTerms) : Prop where
  removed : terms.removed.step = 0
  removed_ne : terms.removed ≠ .removedType
  conflict : terms.conflict.step = 1
  numberReuse : terms.numberReuse.step = 2
  numberReuse_ne : terms.numberReuse ≠ .reservedNameReuse

/-- The terms of both kinds of types are in order. -/
theorem TypeDef.terms_ordered (definition : TypeDef) : definition.terms.Ordered := by
  cases definition <;> exact ⟨rfl, nofun, rfl, rfl, nofun⟩

/-- The rules for the members of a type: what the step from one version to the other breaks. -/
inductive MemberBreach (terms : MemberTerms) (path : String) (old new : MemberSet) :
    Breach → Prop where
  | removed (member : Member) (hcounts : old.Counts member) (hgone : new.Lacks member.name)
      (hopen : ¬(new.reserved.CoversNumber member.number ∧
        member.name ∈ new.reserved.names)) :
      MemberBreach terms path old new (.ofRemoval terms path member)
  | conflict (before after : Member) (hbefore : old.Counts before) (hafter : new.Counts after)
      (hname : after.name = before.name) (htaken : MemberSet.NumberTaken old new after) :
      MemberBreach terms path old new (.ofConflict terms path before after)
  | numberReuse (member : Member) (hcounts : new.Counts member) (hnew : old.Lacks member.name)
      (htaken : MemberSet.NumberTaken old new member) :
      MemberBreach terms path old new (.ofNumberReuse terms path member)
  | nameReuse (member : Member) (hcounts : new.Counts member) (hnew : old.Lacks member.name)
      (hreserved : member.name ∈ old.reserved.names ∨ member.name ∈ new.reserved.names) :
      MemberBreach terms path old new (.ofNameReuse path member)

/-- Every breach of the members of a type is one at the path of the type. -/
theorem MemberBreach.typePath_eq {terms : MemberTerms} {path : String} {old new : MemberSet}
    {breach : Breach} (h : MemberBreach terms path old new breach) : breach.typePath = path := by
  cases h <;> rfl

/-- The rules for members never remove a type. -/
theorem MemberBreach.kind_ne {terms : MemberTerms} (hterms : terms.Ordered) {path : String}
    {old new : MemberSet} {breach : Breach} (h : MemberBreach terms path old new breach) :
    breach.kind ≠ .removedType := by
  intro hkind
  have hstep : breach.kind.step = 0 := by
    rw [hkind]
    rfl
  cases h with
  | removed => exact hterms.removed_ne hkind
  | conflict => exact absurd (hterms.conflict.symm.trans hstep) (by decide)
  | numberReuse => exact absurd (hterms.numberReuse.symm.trans hstep) (by decide)
  | nameReuse => cases hkind

section Reports

variable {terms : MemberTerms} {path : String} {old new : MemberSet} {breach : Breach}
  {finding : Finding}

/-- If every value has the same image, the image is there exactly when there is a value. -/
theorem map_eq_some_iff_of_const {α : Type} {found : Option α} {report : α → Breach}
    {image : Breach} (h : ∀ value, report value = image) :
    found.map report = some breach ↔ found ≠ none ∧ image = breach := by
  cases found <;> simp [h]

/-- What is reported of a member that is gone. -/
theorem breach_removal?_eq_some_iff {member : Member} :
    (removal? terms path new member).map Finding.breach = some breach ↔
      ¬(new.reserved.CoversNumber member.number ∧ member.name ∈ new.reserved.names) ∧
        .ofRemoval terms path member = breach := by
  rw [← Reservations.reservesNumber_iff_covers, ← Reservations.reservesName_iff,
    Option.map_eq_some_iff]
  simp only [removal?_eq_some_iff, and_assoc]
  rw [exists_and_left, exists_eq_left']
  rfl

/-- What is reported of a member that is kept. -/
theorem breach_conflict?_eq_some_iff {before after : Member} :
    (conflict? terms path old new before after).map Finding.breach = some breach ↔
      MemberSet.NumberTaken old new after ∧ .ofConflict terms path before after = breach := by
  rw [conflict?, Option.map_map, ← not_not (a := MemberSet.NumberTaken old new after),
    ← MemberSet.numberClash?_eq_none_iff]
  exact map_eq_some_iff_of_const fun _ => rfl

/-- What is reported of the number of a new member. -/
theorem breach_numberReuse?_eq_some_iff {member : Member} :
    (numberReuse? terms path old new member).map Finding.breach = some breach ↔
      MemberSet.NumberTaken old new member ∧ .ofNumberReuse terms path member = breach := by
  rw [numberReuse?, Option.map_map, ← not_not (a := MemberSet.NumberTaken old new member),
    ← MemberSet.numberClash?_eq_none_iff]
  exact map_eq_some_iff_of_const fun _ => rfl

/-- What is reported of the name of a new member. -/
theorem breach_nameReuse?_eq_some_iff {member : Member} :
    (nameReuse? terms path old new member).map Finding.breach = some breach ↔
      (member.name ∈ old.reserved.names ∨ member.name ∈ new.reserved.names) ∧
        .ofNameReuse path member = breach := by
  rw [nameReuse?, Option.map_map, ← not_not (a := _ ∨ _), ← MemberSet.nameReservedIn?_eq_none_iff]
  exact map_eq_some_iff_of_const fun _ => rfl

/-- What is reported of a new member. -/
theorem mem_breaches_reuses {member : Member} :
    breach ∈ ((numberReuse? terms path old new member).toList ++
        (nameReuse? terms path old new member).toList).map Finding.breach ↔
      MemberSet.NumberTaken old new member ∧ .ofNumberReuse terms path member = breach ∨
        (member.name ∈ old.reserved.names ∨ member.name ∈ new.reserved.names) ∧
          .ofNameReuse path member = breach := by
  rw [← breach_numberReuse?_eq_some_iff, ← @breach_nameReuse?_eq_some_iff terms]
  simp

/-- The findings on the members that only the baseline has. -/
theorem mem_removedFindings :
    finding ∈ removedFindings terms path old new ↔
      ∃ member, old.Counts member ∧ new.Lacks member.name ∧
        removal? terms path new member = some finding := by
  rw [removedFindings, List.mem_filterMap]
  refine exists_congr fun member => and_congr MemberSet.mem_values_byName ?_
  rw [← MemberSet.contains_byName_eq_false]
  cases new.byName.contains member.name <;> simp

/-- The findings on the members that both versions have. -/
theorem mem_keptFindings :
    finding ∈ keptFindings terms path old new ↔
      ∃ before after, old.Counts before ∧ new.Counts after ∧ after.name = before.name ∧
        conflict? terms path old new before after = some finding := by
  rw [keptFindings, List.mem_filterMap]
  refine exists_congr fun before => ?_
  rw [MemberSet.mem_values_byName, Option.bind_eq_some_iff, exists_and_left]
  simp only [MemberSet.find?_byName_eq_some_iff, and_assoc]

/-- The findings on the members that only the candidate has. -/
theorem mem_addedFindings :
    finding ∈ addedFindings terms path old new ↔
      ∃ member, new.Counts member ∧ old.Lacks member.name ∧
        (numberReuse? terms path old new member = some finding ∨
          nameReuse? terms path old new member = some finding) := by
  rw [addedFindings, List.mem_flatMap]
  refine exists_congr fun member => and_congr MemberSet.mem_values_byName ?_
  rw [← MemberSet.contains_byName_eq_false]
  cases old.byName.contains member.name <;> simp

/-- The findings on the members of a type. -/
theorem mem_compareMembers :
    finding ∈ compareMembers terms path old new ↔
      (∃ member, old.Counts member ∧ new.Lacks member.name ∧
        removal? terms path new member = some finding) ∨
      (∃ before after, old.Counts before ∧ new.Counts after ∧ after.name = before.name ∧
        conflict? terms path old new before after = some finding) ∨
      ∃ member, new.Counts member ∧ old.Lacks member.name ∧
        (numberReuse? terms path old new member = some finding ∨
          nameReuse? terms path old new member = some finding) := by
  rw [compareMembers_eq, List.mem_append, List.mem_append, mem_removedFindings, mem_keptFindings,
    mem_addedFindings, or_assoc]

/-- Every finding on the members of a type is an error. -/
theorem severity_of_mem_compareMembers (h : finding ∈ compareMembers terms path old new) :
    finding.severity = .error := by
  obtain ⟨member, -, -, h⟩ | ⟨before, after, -, -, -, h⟩ | ⟨member, -, -, h | h⟩ :=
    mem_compareMembers.1 h
  · obtain ⟨-, rfl⟩ := removal?_eq_some_iff.1 h
    rfl
  · obtain ⟨clash, -, rfl⟩ := Option.map_eq_some_iff.1 h
    rfl
  · obtain ⟨clash, -, rfl⟩ := Option.map_eq_some_iff.1 h
    rfl
  · obtain ⟨version, -, rfl⟩ := Option.map_eq_some_iff.1 h
    rfl

/-- What is reported of the members that only the baseline has. -/
theorem mem_breaches_removedFindings :
    breach ∈ (removedFindings terms path old new).map Finding.breach ↔
      ∃ member, old.Counts member ∧ new.Lacks member.name ∧
        ¬(new.reserved.CoversNumber member.number ∧ member.name ∈ new.reserved.names) ∧
        .ofRemoval terms path member = breach := by
  simp only [← breach_removal?_eq_some_iff, Option.map_eq_some_iff, List.mem_map,
    mem_removedFindings]
  constructor
  · rintro ⟨finding, ⟨member, hcounts, hgone, hfinding⟩, hbreach⟩
    exact ⟨member, hcounts, hgone, finding, hfinding, hbreach⟩
  · rintro ⟨member, hcounts, hgone, finding, hfinding, hbreach⟩
    exact ⟨finding, ⟨member, hcounts, hgone, hfinding⟩, hbreach⟩

/-- What is reported of the members that both versions have. -/
theorem mem_breaches_keptFindings :
    breach ∈ (keptFindings terms path old new).map Finding.breach ↔
      ∃ before after, old.Counts before ∧ new.Counts after ∧ after.name = before.name ∧
        MemberSet.NumberTaken old new after ∧ .ofConflict terms path before after = breach := by
  simp only [← breach_conflict?_eq_some_iff, Option.map_eq_some_iff, List.mem_map,
    mem_keptFindings]
  constructor
  · rintro ⟨finding, ⟨before, after, hbefore, hafter, hname, hfinding⟩, hbreach⟩
    exact ⟨before, after, hbefore, hafter, hname, finding, hfinding, hbreach⟩
  · rintro ⟨before, after, hbefore, hafter, hname, finding, hfinding, hbreach⟩
    exact ⟨finding, ⟨before, after, hbefore, hafter, hname, hfinding⟩, hbreach⟩

/-- What is reported of the members that only the candidate has. -/
theorem mem_breaches_addedFindings :
    breach ∈ (addedFindings terms path old new).map Finding.breach ↔
      ∃ member, new.Counts member ∧ old.Lacks member.name ∧
        (MemberSet.NumberTaken old new member ∧ .ofNumberReuse terms path member = breach ∨
          (member.name ∈ old.reserved.names ∨ member.name ∈ new.reserved.names) ∧
            .ofNameReuse path member = breach) := by
  rw [addedFindings, List.map_flatMap, List.mem_flatMap]
  refine exists_congr fun member => and_congr MemberSet.mem_values_byName ?_
  rw [← MemberSet.contains_byName_eq_false]
  cases old.byName.contains member.name with
  | true => simp
  | false => simp only [Bool.false_eq_true, if_false, true_and, mem_breaches_reuses]

/-- The comparison of the members of a type reports exactly what breaks the rules. -/
theorem mem_breaches_compareMembers :
    breach ∈ (compareMembers terms path old new).map Finding.breach ↔
      MemberBreach terms path old new breach := by
  rw [compareMembers_eq, List.map_append, List.map_append, List.mem_append, List.mem_append,
    mem_breaches_removedFindings, mem_breaches_keptFindings, mem_breaches_addedFindings]
  constructor
  · rintro ((⟨member, hcounts, hgone, hopen, rfl⟩ |
      ⟨before, after, hbefore, hafter, hname, htaken, rfl⟩) |
      ⟨member, hcounts, hnew, ⟨htaken, rfl⟩ | ⟨hreserved, rfl⟩⟩)
    · exact .removed member hcounts hgone hopen
    · exact .conflict before after hbefore hafter hname htaken
    · exact .numberReuse member hcounts hnew htaken
    · exact .nameReuse member hcounts hnew hreserved
  · intro h
    cases h with
    | removed member hcounts hgone hopen =>
        exact .inl (.inl ⟨member, hcounts, hgone, hopen, rfl⟩)
    | conflict before after hbefore hafter hname htaken =>
        exact .inl (.inr ⟨before, after, hbefore, hafter, hname, htaken, rfl⟩)
    | numberReuse member hcounts hnew htaken =>
        exact .inr ⟨member, hcounts, hnew, .inl ⟨htaken, rfl⟩⟩
    | nameReuse member hcounts hnew hreserved =>
        exact .inr ⟨member, hcounts, hnew, .inr ⟨hreserved, rfl⟩⟩

/-- The removed members are reported in order of name. -/
theorem pairwise_breaches_removedFindings :
    ((removedFindings terms path old new).map Finding.breach).Pairwise Breach.Precedes := by
  rw [removedFindings, List.map_filterMap, List.pairwise_filterMap]
  refine MemberSet.pairwise_values_byName.imp ?_
  intro member other hlt breach hbreach breach' hbreach'
  split at hbreach
  · simp at hbreach
  · split at hbreach'
    · simp at hbreach'
    · obtain ⟨-, rfl⟩ := breach_removal?_eq_some_iff.1 hbreach
      obtain ⟨-, rfl⟩ := breach_removal?_eq_some_iff.1 hbreach'
      exact Breach.precedes_of_name_lt rfl rfl rfl rfl hlt

/-- The kept members are reported in order of name. -/
theorem pairwise_breaches_keptFindings :
    ((keptFindings terms path old new).map Finding.breach).Pairwise Breach.Precedes := by
  rw [keptFindings, List.map_filterMap, List.pairwise_filterMap]
  refine MemberSet.pairwise_values_byName.imp ?_
  intro before before' hlt breach hbreach breach' hbreach'
  rw [Option.map_bind, Option.bind_eq_some_iff] at hbreach hbreach'
  obtain ⟨after, hfind, hbreach⟩ := hbreach
  obtain ⟨after', hfind', hbreach'⟩ := hbreach'
  obtain ⟨-, rfl⟩ := breach_conflict?_eq_some_iff.1 hbreach
  obtain ⟨-, rfl⟩ := breach_conflict?_eq_some_iff.1 hbreach'
  rw [← (MemberSet.find?_byName_eq_some_iff.1 hfind).2,
    ← (MemberSet.find?_byName_eq_some_iff.1 hfind').2] at hlt
  exact Breach.precedes_of_name_lt rfl rfl rfl rfl hlt

/-- The new members are reported in order of name, of each its number before its name. -/
theorem pairwise_breaches_addedFindings (hterms : terms.Ordered) :
    ((addedFindings terms path old new).map Finding.breach).Pairwise Breach.Precedes := by
  have hreport : ∀ member breach,
      breach ∈ ((numberReuse? terms path old new member).toList ++
        (nameReuse? terms path old new member).toList).map Finding.breach →
      breach.typePath = path ∧ breach.kind.step = 2 ∧ breach.member = some member.name := by
    intro member breach hmem
    rcases mem_breaches_reuses.1 hmem with ⟨-, rfl⟩ | ⟨-, rfl⟩
    · exact ⟨rfl, hterms.numberReuse, rfl⟩
    · exact ⟨rfl, rfl, rfl⟩
  rw [addedFindings, List.map_flatMap, List.pairwise_flatMap]
  constructor
  · intro member _
    split
    · exact .nil
    · -- Of one member at most two findings are reported, on its number and on its name.
      rw [List.map_append, ← Option.toList_map, ← Option.toList_map, List.pairwise_append]
      refine ⟨by cases Option.map _ _ <;> simp, by cases Option.map _ _ <;> simp, ?_⟩
      intro breach hbreach breach' hbreach'
      rw [Option.mem_toList] at hbreach hbreach'
      obtain ⟨-, rfl⟩ := breach_numberReuse?_eq_some_iff.1 hbreach
      obtain ⟨-, rfl⟩ := breach_nameReuse?_eq_some_iff.1 hbreach'
      exact .inr ⟨rfl, .inr ⟨hterms.numberReuse, .inr ⟨rfl, hterms.numberReuse_ne, rfl⟩⟩⟩
  · refine MemberSet.pairwise_values_byName.imp ?_
    intro member member' hlt breach hbreach breach' hbreach'
    split at hbreach
    · simp at hbreach
    · split at hbreach'
      · simp at hbreach'
      · obtain ⟨hpath, hstep, hname⟩ := hreport member breach hbreach
        obtain ⟨hpath', hstep', hname'⟩ := hreport member' breach' hbreach'
        exact Breach.precedes_of_name_lt (hpath.trans hpath'.symm) (hstep.trans hstep'.symm)
          hname hname' hlt

/-- The comparison of the members of a type reports each breach once and in order. -/
theorem pairwise_breaches_compareMembers (hterms : terms.Ordered) :
    ((compareMembers terms path old new).map Finding.breach).Pairwise Breach.Precedes := by
  have hstep : ∀ {a b : Breach}, a.typePath = b.typePath → a.kind.step < b.kind.step →
      a.Precedes b := fun hpath hlt => .inr ⟨hpath, .inl hlt⟩
  rw [compareMembers_eq, List.map_append, List.map_append, List.pairwise_append,
    List.pairwise_append]
  -- Inside a step the order is known; between two steps the step of the kind decides.
  refine ⟨⟨pairwise_breaches_removedFindings, pairwise_breaches_keptFindings, ?_⟩,
    pairwise_breaches_addedFindings hterms, ?_⟩
  · intro breach hbreach breach' hbreach'
    obtain ⟨member, -, -, -, rfl⟩ := mem_breaches_removedFindings.1 hbreach
    obtain ⟨before, after, -, -, -, -, rfl⟩ := mem_breaches_keptFindings.1 hbreach'
    refine hstep rfl ?_
    simp [Breach.ofRemoval, Breach.ofConflict, hterms.removed, hterms.conflict]
  · intro breach hbreach breach' hbreach'
    have hadded : breach'.typePath = path ∧ breach'.kind.step = 2 := by
      obtain ⟨member, -, -, ⟨-, rfl⟩ | ⟨-, rfl⟩⟩ := mem_breaches_addedFindings.1 hbreach'
      · exact ⟨rfl, hterms.numberReuse⟩
      · exact ⟨rfl, rfl⟩
    rcases List.mem_append.1 hbreach with hbreach | hbreach
    · obtain ⟨member, -, -, -, rfl⟩ := mem_breaches_removedFindings.1 hbreach
      refine hstep hadded.1.symm ?_
      simp [Breach.ofRemoval, hterms.removed, hadded.2]
    · obtain ⟨before, after, -, -, -, -, rfl⟩ := mem_breaches_keptFindings.1 hbreach
      refine hstep hadded.1.symm ?_
      simp [Breach.ofConflict, hterms.conflict, hadded.2]

end Reports

end SchemaGate
