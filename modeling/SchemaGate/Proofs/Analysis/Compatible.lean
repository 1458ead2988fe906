import SchemaGate.Proofs.Analysis.RuleTable

/-!
# What a compatible step keeps

`MemberSet.MayBecome` says of two versions of a type that the step from the one to the other breaks
no rule for members. Between schemas without findings it holds at every path of the baseline. The
main statement is `retired_number_unused`: after a compatible step the number of a member that is
gone is reserved together with its name, and no member has it.
-/

namespace SchemaGate

namespace MemberSet

/-- The step from one version of a type to another breaks no rule: what is gone is reserved by
number and name, what is there has a free number, and what is new has a free name. -/
structure MayBecome (old new : MemberSet) : Prop where
  retired : ∀ member, old.Counts member → new.Lacks member.name →
    new.reserved.CoversNumber member.number ∧ member.name ∈ new.reserved.names
  numberFree : ∀ member, new.Counts member → ¬NumberTaken old new member
  nameFree : ∀ member, new.Counts member → old.Lacks member.name →
    ¬(member.name ∈ old.reserved.names ∨ member.name ∈ new.reserved.names)

/-- One version of a type may become another exactly when nothing breaks the rules. -/
theorem mayBecome_iff (terms : MemberTerms) (path : String) {old new : MemberSet} :
    old.MayBecome new ↔ ∀ breach, ¬MemberBreach terms path old new breach := by
  constructor
  · intro h breach hbreach
    cases hbreach with
    | removed member hcounts hgone hopen => exact hopen (h.retired member hcounts hgone)
    | conflict before after _ hafter _ htaken => exact h.numberFree after hafter htaken
    | numberReuse member hcounts _ htaken => exact h.numberFree member hcounts htaken
    | nameReuse member hcounts hnew hreserved => exact h.nameFree member hcounts hnew hreserved
  · intro h
    refine ⟨?_, ?_, ?_⟩
    · intro member hcounts hgone
      by_contra hopen
      exact h _ (.removed member hcounts hgone hopen)
    · -- A taken number is a conflict or a reuse, depending on whether the member is new.
      intro member hcounts htaken
      by_cases hnew : old.Lacks member.name
      · exact h _ (.numberReuse member hcounts hnew htaken)
      · obtain ⟨before, hbefore, hname⟩ := exists_counts hnew
        exact h _ (.conflict before member hbefore hcounts hname.symm htaken)
    · intro member hcounts hnew hreserved
      exact h _ (.nameReuse member hcounts hnew hreserved)

end MemberSet

/-- No type of the schema declares two members of one name. -/
def SchemaTree.NamesOnce (tree : SchemaTree) : Prop :=
  ∀ declaration ∈ tree.declarations,
    (declaration.definition.memberSet.members.map (·.name)).Nodup

/-- Whether names are declared once is decided type by type. -/
instance (tree : SchemaTree) : Decidable tree.NamesOnce :=
  inferInstanceAs (Decidable (∀ declaration ∈ tree.declarations, _))

variable {baseline candidate : SchemaTree} {old new : TypeIndex}

/-- Without findings every type of the baseline is still there, of its kind, and its members may
become those of the candidate. -/
theorem exists_mayBecome_of_findings_eq_nil (hold : TypeIndex.build baseline = .ok old)
    (hnew : TypeIndex.build candidate = .ok new) (h : findings old new = [])
    {before : Declaration} (hbefore : before ∈ baseline.declarations) :
    ∃ after ∈ candidate.declarations, after.path = before.path ∧
      before.definition.kindName = after.definition.kindName ∧
      before.definition.memberSet.MayBecome after.definition.memberSet := by
  have hnone : ∀ breach, ¬TypeBreach baseline candidate breach := by
    intro breach hbreach
    simpa [h] using (mem_breaches_findings hold hnew).2 hbreach
  have hpresent : ∃ after ∈ candidate.declarations, after.path = before.path := by
    by_contra hgone
    refine hnone _ (.missing before hbefore ?_)
    intro after hafter hpath
    exact hgone ⟨after, hafter, hpath⟩
  obtain ⟨after, hafter, hpath⟩ := hpresent
  have hkind : before.definition.kindName = after.definition.kindName := by
    by_contra hkind
    exact hnone _ (.kindChanged before after hbefore hafter hpath hkind)
  refine ⟨after, hafter, hpath, hkind, (MemberSet.mayBecome_iff before.definition.terms
    before.path).2 ?_⟩
  intro breach hbreach
  exact hnone breach (.member before after hbefore hafter hpath hkind breach hbreach)

/-- After a compatible step every type of the baseline is still there, and of every member whose
name the candidate's type no longer has, the number and the name are reserved and no member of the
candidate's type has the number. -/
theorem retired_number_unused (hold : TypeIndex.build baseline = .ok old)
    (hnew : TypeIndex.build candidate = .ok new) (hbaseline : baseline.NamesOnce)
    (hcandidate : candidate.NamesOnce) (hcompatible : (analyze old new).compatible = true) :
    ∀ before ∈ baseline.declarations, ∃ after ∈ candidate.declarations,
      after.path = before.path ∧ before.definition.kindName = after.definition.kindName ∧
      ∀ member ∈ before.definition.memberSet.members,
        after.definition.memberSet.Lacks member.name →
          (∀ holder ∈ after.definition.memberSet.members, holder.number ≠ member.number) ∧
          after.definition.memberSet.reserved.CoversNumber member.number ∧
          member.name ∈ after.definition.memberSet.reserved.names := by
  intro before hbefore
  obtain ⟨after, hafter, hpath, hkind, hstep⟩ :=
    exists_mayBecome_of_findings_eq_nil hold hnew (List.isEmpty_iff.1 hcompatible) hbefore
  refine ⟨after, hafter, hpath, hkind, ?_⟩
  intro member hmember hgone
  obtain ⟨hnumber, hname⟩ := hstep.retired member
    ((MemberSet.counts_iff_mem (hbaseline before hbefore)).2 hmember) hgone
  refine ⟨?_, hnumber, hname⟩
  -- A holder of the number would use a reserved number, whether it is kept, moved or new.
  intro holder hholder heq
  have hfree := hstep.numberFree holder
    ((MemberSet.counts_iff_mem (hcandidate after hafter)).2 hholder)
  exact hfree (.inr (.inl (heq ▸ hnumber)))

/-- A schema with a message inside a message and an enum with two names for a value. -/
def ticketsBefore : SchemaTree :=
  ⟨[{ path := "tickets.proto", package := ["desk"]
      messages :=
        [{ name := "Ticket"
           messages :=
             [{ name := "Owner"
                fields :=
                  [⟨"id", 1, "string", false, none⟩, ⟨"mail", 2, "string", false, none⟩] }] }]
      enums :=
        [{ name := "State", constants := [⟨"NEW", 0⟩, ⟨"OPEN", 0⟩, ⟨"DONE", 1⟩]
           allowAlias := true }] }]⟩

/-- The schema without one of the fields and one of the constants, whose numbers and names are
reserved. -/
def ticketsAfter : SchemaTree :=
  ⟨[{ path := "tickets.proto", package := ["desk"]
      messages :=
        [{ name := "Ticket"
           messages :=
             [{ name := "Owner", fields := [⟨"id", 3, "string", false, none⟩]
                reserved := ⟨[⟨2, 2⟩], ["mail"]⟩ }] }]
      enums :=
        [{ name := "State", constants := [⟨"NEW", 0⟩, ⟨"OPEN", 0⟩], allowAlias := true
           reserved := ⟨[⟨1, 5⟩], ["DONE"]⟩ }] }]⟩

/-- The step is compatible, and the numbers of what is gone are not used again. -/
theorem retired_number_unused_tickets :
    ∃ old new, TypeIndex.build ticketsBefore = .ok old ∧ TypeIndex.build ticketsAfter = .ok new ∧
      ticketsBefore.NamesOnce ∧ ticketsAfter.NamesOnce ∧
      (analyze old new).compatible = true ∧
      ∀ before ∈ ticketsBefore.declarations, ∃ after ∈ ticketsAfter.declarations,
        after.path = before.path ∧ before.definition.kindName = after.definition.kindName ∧
        ∀ member ∈ before.definition.memberSet.members,
          after.definition.memberSet.Lacks member.name →
            (∀ holder ∈ after.definition.memberSet.members, holder.number ≠ member.number) ∧
            after.definition.memberSet.reserved.CoversNumber member.number ∧
            member.name ∈ after.definition.memberSet.reserved.names :=
  ⟨_, _, rfl, rfl, by decide, by decide, rfl,
    retired_number_unused rfl rfl (by decide) (by decide) rfl⟩

end SchemaGate
