import SchemaGate.Proofs.Analysis.RuleTable

/-!
# Members in another order

Findings name the holder of a number that another member uses, and the first holder depends on the
order in which members are declared. Nothing else does, and for distinct members there is no holder,
so two versions of a type that differ in the order of their members have the same findings, down to
the wording. The main statements are `compareMembers_eq_of_reordered_old`,
`compareMembers_eq_of_numberClash?_eq` and `compareMembers_eq_of_reordered_new`.
-/

namespace SchemaGate

namespace MemberSet

/-- The same members, perhaps in another order, with the same reservations. -/
structure Reordered (version other : MemberSet) : Prop where
  members : other.members.Perm version.members
  reserved : other.reserved = version.reserved
  allowAlias : other.allowAlias = version.allowAlias

variable {version other : MemberSet}

/-- Distinct members are distinct in any order. -/
theorem Reordered.distinct (h : version.Reordered other) (hdistinct : version.Distinct) :
    other.Distinct := by
  refine ⟨(h.members.map _).nodup_iff.2 hdistinct.namesOnce, fun halias => ?_⟩
  rw [h.allowAlias] at halias
  exact (h.members.map _).nodup_iff.2 (hdistinct.numbersOnce halias)

/-- Members stay well-formed when they are listed in another order. -/
theorem Reordered.wellFormed (h : version.Reordered other) (hformed : version.WellFormed) :
    other.WellFormed := by
  refine ⟨h.distinct hformed.toDistinct, fun member hmem => ?_, fun member hmem => ?_⟩
  · rw [h.reserved]
    exact hformed.numberFree member (h.members.mem_iff.1 hmem)
  · rw [h.reserved]
    exact hformed.nameFree member (h.members.mem_iff.1 hmem)

/-- If no name is declared twice, the order of the members does not matter to the table by name. -/
theorem Reordered.byName_eq (h : version.Reordered other)
    (honce : (version.members.map (·.name)).Nodup) : other.byName = version.byName := by
  have honce' : (other.members.map (·.name)).Nodup := (h.members.map _).nodup_iff.2 honce
  refine NameMap.eq_of_find?_eq fun name => Option.ext fun member => ?_
  rw [find?_byName_eq_some_iff, find?_byName_eq_some_iff, counts_iff_mem honce,
    counts_iff_mem honce', h.members.mem_iff]

end MemberSet

section Comparison

variable {terms : MemberTerms} {path : String} {old old' new new' : MemberSet}

/-- Of the baseline the comparison sees the table by name and the reservations. -/
theorem compareMembers_eq_of_reordered_old (h : old.Reordered old')
    (honce : (old.members.map (·.name)).Nodup) :
    compareMembers terms path old' new = compareMembers terms path old new := by
  have htable := h.byName_eq honce
  have hclash : numberClash? old' new = numberClash? old new := by
    funext member
    rw [numberClash?, numberClash?, h.reserved]
  simp only [compareMembers_eq, removedFindings, keptFindings, addedFindings, conflict?,
    numberReuse?, nameReuse?, htable, hclash, h.reserved]

/-- Of the candidate it sees as much, and which numbers clash. -/
theorem compareMembers_eq_of_numberClash?_eq (h : new.Reordered new')
    (honce : (new.members.map (·.name)).Nodup)
    (hclash : ∀ member ∈ new.members, numberClash? old new' member = numberClash? old new member) :
    compareMembers terms path old new' = compareMembers terms path old new := by
  have htable := h.byName_eq honce
  have hremoved : removedFindings terms path old new' = removedFindings terms path old new := by
    simp only [removedFindings, removal?, htable, h.reserved]
  have hkept : keptFindings terms path old new' = keptFindings terms path old new := by
    rw [keptFindings, keptFindings, htable]
    refine List.filterMap_congr fun before _ => ?_
    refine Option.bind_congr fun after hfind => ?_
    have hcounts := (MemberSet.find?_byName_eq_some_iff.1 hfind).1
    rw [conflict?, conflict?, hclash after hcounts.mem]
  have hadded : addedFindings terms path old new' = addedFindings terms path old new := by
    rw [addedFindings, addedFindings, htable]
    refine List.flatMap_congr fun member hmem => ?_
    have hcounts := MemberSet.mem_values_byName.1 hmem
    simp only [numberReuse?, nameReuse?, hclash member hcounts.mem, h.reserved]
  rw [compareMembers_eq, compareMembers_eq, hremoved, hkept, hadded]

/-- If the members of the candidate are distinct, their order does not matter. -/
theorem compareMembers_eq_of_reordered_new (h : new.Reordered new') (hdistinct : new.Distinct) :
    compareMembers terms path old new' = compareMembers terms path old new := by
  refine compareMembers_eq_of_numberClash?_eq h hdistinct.namesOnce fun member hmem => ?_
  -- Neither version finds another member that holds the number of a member.
  rw [numberClash?, numberClash?, h.reserved, hdistinct.liveHolder?_eq_none hmem,
    (h.distinct hdistinct).liveHolder?_eq_none (h.members.mem_iff.2 hmem)]

end Comparison

end SchemaGate
