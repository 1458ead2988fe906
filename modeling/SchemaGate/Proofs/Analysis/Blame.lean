import SchemaGate.Proofs.Analysis.RuleTable
import SchemaGate.Proofs.Validation.WellFormed

/-!
# Whom a finding blames

A finding on the number of a member comes from a clash: with a range that one of the two versions
reserves, or with another member of the candidate. A candidate that was found valid does not clash
with itself, so what is left is what the baseline reserves. The main statement is
`findings_blame_baseline`.
-/

namespace SchemaGate

namespace FindingKind

/-- The kinds of the findings on the number of a member. -/
def onNumbers : List FindingKind :=
  [tagConflict, valueConflict, reservedTagReuse, reservedValueReuse]

/-- What is gone is not reported by its number. -/
theorem step_ne_zero_of_mem_onNumbers {kind : FindingKind} (h : kind ∈ onNumbers) :
    kind.step ≠ 0 := by
  revert kind
  decide

end FindingKind

section Members

variable {terms : MemberTerms} {path : String} {old new : MemberSet} {finding : Finding}

/-- The finding is that on the number of a member of the candidate, which is kept or new, and comes
from the given clash. -/
structure MemberSet.FromClash (terms : MemberTerms) (path : String) (old new : MemberSet)
    (member : Member) (clash : NumberClash) (finding : Finding) : Prop where
  clashes : numberClash? old new member = some clash
  reported : (∃ before, old.Counts before ∧ member.name = before.name ∧
      conflict? terms path old new before member = some finding) ∨
    old.Lacks member.name ∧ numberReuse? terms path old new member = some finding

/-- A finding that comes from the clash of a member is about its number. -/
theorem MemberSet.FromClash.number_eq {member : Member} {clash : NumberClash}
    (h : FromClash terms path old new member clash finding) :
    finding.number = some member.number := by
  obtain ⟨before, -, -, hfinding⟩ | ⟨-, hfinding⟩ := h.reported
  · obtain ⟨_, -, rfl⟩ := Option.map_eq_some_iff.1 hfinding
    rfl
  · obtain ⟨_, -, rfl⟩ := Option.map_eq_some_iff.1 hfinding
    rfl

/-- A finding on a number comes from the clash of a member of the candidate. -/
theorem exists_fromClash (hterms : terms.Ordered)
    (h : finding ∈ compareMembers terms path old new)
    (hkind : finding.kind ∈ FindingKind.onNumbers) :
    ∃ member clash, new.Counts member ∧
      MemberSet.FromClash terms path old new member clash finding := by
  obtain ⟨member, -, -, hfinding⟩ | ⟨before, after, hbefore, hafter, hname, hfinding⟩ |
    ⟨member, hcounts, hlacks, hfinding | hfinding⟩ := mem_compareMembers.1 h
  · obtain ⟨-, rfl⟩ := removal?_eq_some_iff.1 hfinding
    exact absurd hterms.removed (FindingKind.step_ne_zero_of_mem_onNumbers hkind)
  · obtain ⟨clash, hclash, -⟩ := Option.map_eq_some_iff.1 hfinding
    exact ⟨after, clash, hafter, hclash, .inl ⟨before, hbefore, hname, hfinding⟩⟩
  · obtain ⟨clash, hclash, -⟩ := Option.map_eq_some_iff.1 hfinding
    exact ⟨member, clash, hcounts, hclash, .inr ⟨hlacks, hfinding⟩⟩
  · obtain ⟨version, -, rfl⟩ := Option.map_eq_some_iff.1 hfinding
    exact absurd hkind (show FindingKind.reservedNameReuse ∉ FindingKind.onNumbers by decide)

/-- A finding on a name is about a new member whose name a version reserves. -/
theorem exists_nameReservedIn (hterms : terms.Ordered)
    (h : finding ∈ compareMembers terms path old new) (hkind : finding.kind = .reservedNameReuse) :
    ∃ member version, new.Counts member ∧ finding.member = some member.name ∧
      nameReservedIn? old.reserved new.reserved member.name = some version := by
  obtain ⟨member, -, -, hfinding⟩ | ⟨before, after, -, -, -, hfinding⟩ |
    ⟨member, hcounts, -, hfinding | hfinding⟩ := mem_compareMembers.1 h
  · obtain ⟨-, rfl⟩ := removal?_eq_some_iff.1 hfinding
    exact absurd (hterms.removed.symm.trans (congrArg FindingKind.step hkind)) (by decide)
  · obtain ⟨clash, -, rfl⟩ := Option.map_eq_some_iff.1 hfinding
    exact absurd (hterms.conflict.symm.trans (congrArg FindingKind.step hkind)) (by decide)
  · obtain ⟨clash, -, rfl⟩ := Option.map_eq_some_iff.1 hfinding
    exact absurd hkind hterms.numberReuse_ne
  · obtain ⟨version, hversion, rfl⟩ := Option.map_eq_some_iff.1 hfinding
    exact ⟨member, version, hcounts, rfl, hversion⟩

/-- The findings on the members of a type are about that type. -/
theorem typePath_of_mem_compareMembers (h : finding ∈ compareMembers terms path old new) :
    finding.typePath = path :=
  (mem_breaches_compareMembers.1 (List.mem_map_of_mem h)).typePath_eq

/-- If the members of the candidate are well-formed, a finding on a number is about a member of the
candidate whose number is in a range of the baseline, and comes from that range. -/
theorem exists_range_of_mem_compareMembers (hterms : terms.Ordered) (hformed : new.WellFormed)
    (h : finding ∈ compareMembers terms path old new)
    (hkind : finding.kind ∈ FindingKind.onNumbers) :
    ∃ member ∈ new.members, finding.number = some member.number ∧
      ∃ range ∈ old.reserved.ranges, range.contains member.number = true ∧
        MemberSet.FromClash terms path old new member (.reserved .baseline range) finding := by
  obtain ⟨member, clash, hcounts, horigin⟩ := exists_fromClash hterms h hkind
  have hclash := horigin.clashes
  rw [hformed.numberClash?_eq hcounts.mem, Option.map_eq_some_iff] at hclash
  obtain ⟨range, hrange, rfl⟩ := hclash
  have hcontains : range.contains member.number = true := by
    simpa using List.find?_some hrange
  exact ⟨member, hcounts.mem, horigin.number_eq, range, List.mem_of_find?_eq_some hrange,
    hcontains, horigin⟩

/-- If the members of the candidate are well-formed, a finding on a name is about a name that the
baseline reserves. -/
theorem exists_name_of_mem_compareMembers (hterms : terms.Ordered) (hformed : new.WellFormed)
    (h : finding ∈ compareMembers terms path old new) (hkind : finding.kind = .reservedNameReuse) :
    ∃ name ∈ old.reserved.names, finding.member = some name := by
  obtain ⟨member, version, hcounts, hname, hversion⟩ := exists_nameReservedIn hterms h hkind
  rw [hformed.nameReservedIn?_eq hcounts.mem, Option.ite_none_right_eq_some] at hversion
  exact ⟨member.name, hversion.1, hname⟩

end Members

/-- The findings on numbers and names blame the baseline. A finding on a number is about a member
whose number the baseline's type reserves, and comes from that reservation. A finding on a name is
about a name that the baseline's type reserves. No member of the candidate shares its number against
the rules or uses what the candidate reserves, whatever it is compared with. -/
structure BlamesBaseline (baseline candidate : SchemaTree) (found : List Finding) : Prop where
  numbers : ∀ finding ∈ found, finding.kind ∈ FindingKind.onNumbers →
    ∃ before ∈ baseline.declarations, ∃ after ∈ candidate.declarations,
      before.path = finding.typePath ∧ after.path = finding.typePath ∧
      ∃ member ∈ after.definition.memberSet.members, finding.number = some member.number ∧
        ∃ range ∈ before.definition.memberSet.reserved.ranges,
          range.contains member.number = true ∧
          ∃ bare, bare.inFile before.file = finding ∧
            MemberSet.FromClash before.definition.terms before.path before.definition.memberSet
              after.definition.memberSet member (.reserved .baseline range) bare
  names : ∀ finding ∈ found, finding.kind = .reservedNameReuse →
    ∃ before ∈ baseline.declarations, before.path = finding.typePath ∧
      ∃ name ∈ before.definition.memberSet.reserved.names, finding.member = some name
  noLiveHolder : ∀ after ∈ candidate.declarations,
    ∀ member ∈ after.definition.memberSet.members,
      after.definition.memberSet.liveHolder? member.number member.name = none
  numberClash : ∀ after ∈ candidate.declarations,
    ∀ member ∈ after.definition.memberSet.members, ∀ before : MemberSet,
      numberClash? before after.definition.memberSet member =
        (before.reserved.rangeContaining? member.number).map (.reserved .baseline)
  nameClash : ∀ after ∈ candidate.declarations,
    ∀ member ∈ after.definition.memberSet.members, ∀ before : MemberSet,
      nameReservedIn? before.reserved after.definition.memberSet.reserved member.name ≠
        some .candidate

/-- The findings on a valid candidate blame the baseline. -/
theorem findings_blame_baseline {baseline candidate : SchemaTree} {old : TypeIndex}
    (hold : TypeIndex.build baseline = .ok old) (hvalid : Validation.validate candidate = .ok ()) :
    ∃ new, TypeIndex.build candidate = .ok new ∧
      BlamesBaseline baseline candidate (findings old new) := by
  obtain ⟨new, hnew⟩ := Validation.exists_build_of_validate hvalid
  have hformed : ∀ after ∈ candidate.declarations, after.definition.memberSet.WellFormed :=
    fun after hafter => Validation.wellFormed_of_validate hvalid hafter
  refine ⟨new, hnew, ?_, ?_, ?_, ?_, ?_⟩
  -- Neither kind of finding removes a type, so both versions of the type are there.
  · intro finding hfinding hkind
    have hne : finding.kind ≠ .removedType := by
      intro hremoved
      exact FindingKind.step_ne_zero_of_mem_onNumbers hkind (by rw [hremoved]; rfl)
    obtain ⟨before, hbefore, after, hafter, hpath, bare, hbare, rfl⟩ :=
      exists_compareMembers_of_mem_findings hold hnew hfinding hne
    have htype : bare.typePath = before.path := typePath_of_mem_compareMembers hbare
    obtain ⟨member, hmember, hnumber, range, hrange, hcontains, horigin⟩ :=
      exists_range_of_mem_compareMembers before.definition.terms_ordered (hformed after hafter)
        hbare hkind
    exact ⟨before, hbefore, after, hafter, htype.symm, hpath.trans htype.symm, member, hmember,
      hnumber, range, hrange, hcontains, bare, rfl, horigin⟩
  · intro finding hfinding hkind
    have hne : finding.kind ≠ .removedType := by
      rw [hkind]
      decide
    obtain ⟨before, hbefore, after, hafter, -, bare, hbare, rfl⟩ :=
      exists_compareMembers_of_mem_findings hold hnew hfinding hne
    have hname := exists_name_of_mem_compareMembers before.definition.terms_ordered
      (hformed after hafter) hbare hkind
    exact ⟨before, hbefore, (typePath_of_mem_compareMembers hbare).symm, hname⟩
  · intro after hafter member hmember
    exact (hformed after hafter).toDistinct.liveHolder?_eq_none hmember
  · intro after hafter member hmember before
    exact (hformed after hafter).numberClash?_eq hmember
  · intro after hafter member hmember before
    rw [(hformed after hafter).nameReservedIn?_eq hmember]
    split <;> simp

/-- An invoice with reserved tags and a reserved name, and its states, with two reserved values. -/
def invoicesBefore : SchemaTree :=
  ⟨[{ path := "invoices.proto", package := ["billing"]
      messages :=
        [{ name := "Invoice"
           fields := [⟨"id", 1, "string", false, none⟩, ⟨"total", 2, "int64", false, none⟩]
           reserved := ⟨[⟨4, 6⟩, ⟨6, 9⟩], ["tax"]⟩ }]
      enums :=
        [{ name := "State", constants := [⟨"OPEN", 0⟩, ⟨"PAID", 1⟩]
           reserved := ⟨[⟨-1, -1⟩, ⟨3, 3⟩], []⟩ }] }]⟩

/-- A valid release that moves a field and a constant to reserved numbers, adds others there, and
takes the reserved name. Its states allow aliases. -/
def invoicesAfter : SchemaTree :=
  ⟨[{ path := "invoices.proto", package := ["billing"]
      messages :=
        [{ name := "Invoice"
           fields :=
             [⟨"id", 6, "string", false, none⟩, ⟨"total", 2, "int64", false, none⟩,
               ⟨"due", 4, "string", false, none⟩, ⟨"tax", 3, "int64", false, none⟩]
           reserved := ⟨[⟨1, 1⟩], ["sum"]⟩ }]
      enums :=
        [{ name := "State"
           constants := [⟨"OPEN", 0⟩, ⟨"NEW", 0⟩, ⟨"PAID", 3⟩, ⟨"VOID", -1⟩]
           allowAlias := true }] }]⟩

/-- The release has findings of all kinds on numbers and names, and they blame the baseline. -/
theorem findings_blame_baseline_invoices :
    ∃ old, TypeIndex.build invoicesBefore = .ok old ∧
      Validation.validate invoicesAfter = .ok () ∧
      (∃ new, TypeIndex.build invoicesAfter = .ok new ∧ (findings old new).map (·.kind) =
        [.tagConflict, .reservedTagReuse, .reservedNameReuse, .valueConflict,
          .reservedValueReuse]) ∧
      ∃ new, TypeIndex.build invoicesAfter = .ok new ∧
        BlamesBaseline invoicesBefore invoicesAfter (findings old new) :=
  ⟨_, rfl, rfl, ⟨_, rfl, rfl⟩, findings_blame_baseline rfl rfl⟩

end SchemaGate
