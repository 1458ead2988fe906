import SchemaGate.Proofs.Analysis.Compatible
import SchemaGate.Proofs.Validation.WellFormed

/-!
# Three releases in a row

Compatibility is not transitive: a reservation that one of two compatible steps drops may be missed
over both. `ChainCause` lists what can be missed, for the three versions of one type. The main
statement is `chain_findings`: if each of two steps between valid schemas is compatible, then every
finding over both steps has one of these causes, and if no step drops a reservation and the first
renumbers no member there is none.
-/

namespace SchemaGate

/-- Why a breach between the first and the third of three versions of a type need not be one between
neighbours: the second version gave up a number or a name that the first one reserved, the third
gave up what the second one reserved, or a member was renumbered before it was removed. -/
inductive ChainCause (terms : MemberTerms) (path : String) (first second third : MemberSet) :
    Breach → Prop where
  | conflict (before after : Member) (hbefore : before ∈ first.members)
      (hafter : after ∈ third.members) (hname : after.name = before.name)
      (hreserved : first.reserved.CoversNumber after.number)
      (hopen : ¬second.reserved.CoversNumber after.number) :
      ChainCause terms path first second third (.ofConflict terms path before after)
  | numberReuse (member : Member) (hmem : member ∈ third.members)
      (hnew : first.Lacks member.name) (hreserved : first.reserved.CoversNumber member.number)
      (hopen : ¬second.reserved.CoversNumber member.number) :
      ChainCause terms path first second third (.ofNumberReuse terms path member)
  | nameReuse (member : Member) (hmem : member ∈ third.members) (hnew : first.Lacks member.name)
      (hreserved : member.name ∈ first.reserved.names)
      (hopen : member.name ∉ second.reserved.names) :
      ChainCause terms path first second third (.ofNameReuse path member)
  | forgotten (member : Member) (hmem : member ∈ first.members)
      (hsecond : second.Lacks member.name) (hthird : third.Lacks member.name)
      (hnumber : second.reserved.CoversNumber member.number)
      (hname : member.name ∈ second.reserved.names)
      (hforgotten : ¬third.reserved.CoversNumber member.number ∨
        member.name ∉ third.reserved.names) :
      ChainCause terms path first second third (.ofRemoval terms path member)
  | renumbered (before after : Member) (hbefore : before ∈ first.members)
      (hafter : after ∈ second.members) (hname : after.name = before.name)
      (hnumber : after.number ≠ before.number) (hthird : third.Lacks before.name)
      (hopen : ¬third.reserved.CoversNumber before.number) :
      ChainCause terms path first second third (.ofRemoval terms path before)

section Versions

variable {terms : MemberTerms} {path : String} {first second third : MemberSet} {member : Member}

/-- A number that a member of the third version has is not reserved in the second. -/
theorem MemberSet.MayBecome.not_covers (h : second.MayBecome third)
    (hcounts : third.Counts member) : ¬second.reserved.CoversNumber member.number :=
  fun hcovers => h.numberFree member hcounts (.inl hcovers)

/-- A name that a member of the third version has is not reserved in the second. -/
theorem MemberSet.MayBecome.name_not_reserved (h : second.MayBecome third)
    (hsecond : second.WellFormed) (hcounts : third.Counts member) :
    member.name ∉ second.reserved.names := by
  intro hreserved
  by_cases hnew : second.Lacks member.name
  · exact h.nameFree member hcounts hnew (.inl hreserved)
  · obtain ⟨kept, hkept, hname⟩ := MemberSet.exists_counts hnew
    exact hsecond.nameFree kept hkept.mem (hname ▸ hreserved)

/-- What breaks the rules over two steps neither of which breaks them has one of the causes. -/
theorem cause_of_memberBreach (hsecond : second.WellFormed) (hthird : third.WellFormed)
    (hstep : first.MayBecome second) (hnext : second.MayBecome third) {breach : Breach}
    (h : MemberBreach terms path first third breach) :
    ChainCause terms path first second third breach := by
  cases h with
  | conflict before after hbefore hafter hname htaken =>
      have hreserved := (hthird.numberTaken_iff hafter.mem).1 htaken
      exact .conflict before after hbefore.mem hafter.mem hname hreserved (hnext.not_covers hafter)
  | numberReuse member hcounts hnew htaken =>
      have hreserved := (hthird.numberTaken_iff hcounts.mem).1 htaken
      exact .numberReuse member hcounts.mem hnew hreserved (hnext.not_covers hcounts)
  | nameReuse member hcounts hnew hreserved =>
      have hfirst := hreserved.resolve_right (hthird.nameFree member hcounts.mem)
      exact .nameReuse member hcounts.mem hnew hfirst (hnext.name_not_reserved hsecond hcounts)
  | removed member hcounts hgone hopen =>
      by_cases habsent : second.Lacks member.name
      · obtain ⟨hnumber, hname⟩ := hstep.retired member hcounts habsent
        exact .forgotten member hcounts.mem habsent hgone hnumber hname
          (Decidable.not_and_iff_or_not.1 hopen)
      · -- The second step retires the member under the number it has in the second version.
        obtain ⟨kept, hkept, hname⟩ := MemberSet.exists_counts habsent
        obtain ⟨hnumber, hreserved⟩ := hnext.retired kept hkept (hname ▸ hgone)
        rw [hname] at hreserved
        have hlost : ¬third.reserved.CoversNumber member.number :=
          fun hcovers => hopen ⟨hcovers, hreserved⟩
        refine .renumbered member kept hcounts.mem hkept.mem hname ?_ hgone hlost
        intro hsame
        exact hlost (hsame ▸ hnumber)

end Versions

/-- Every number and name that a type reserves is still reserved by the type of its path in the next
schema. -/
def SchemaTree.KeepsReservations (tree next : SchemaTree) : Prop :=
  ∀ before ∈ tree.declarations, ∀ after ∈ next.declarations, after.path = before.path →
    (∀ number, before.definition.memberSet.reserved.CoversNumber number →
      after.definition.memberSet.reserved.CoversNumber number) ∧
    ∀ name ∈ before.definition.memberSet.reserved.names,
      name ∈ after.definition.memberSet.reserved.names

/-- Every member that is still there in the next schema has its number there. -/
def SchemaTree.KeepsNumbers (tree next : SchemaTree) : Prop :=
  ∀ before ∈ tree.declarations, ∀ after ∈ next.declarations, after.path = before.path →
    ∀ member ∈ before.definition.memberSet.members,
      ∀ kept ∈ after.definition.memberSet.members,
        kept.name = member.name → kept.number = member.number

section Chain

variable {first second third : SchemaTree} {a b c : TypeIndex}

/-- What breaks the rules over two compatible steps is about a type of all three schemas and has one
of the causes. -/
theorem cause_of_typeBreach (hvalid : Validation.validate second = .ok ())
    (hvalid' : Validation.validate third = .ok ()) (ha : TypeIndex.build first = .ok a)
    (hb : TypeIndex.build second = .ok b) (hc : TypeIndex.build third = .ok c)
    (hstep : findings a b = []) (hnext : findings b c = []) {breach : Breach}
    (h : TypeBreach first third breach) :
    breach.kind ≠ .removedType ∧
      ∃ before ∈ first.declarations, ∃ between ∈ second.declarations,
        ∃ after ∈ third.declarations, before.path = breach.typePath ∧
          between.path = breach.typePath ∧ after.path = breach.typePath ∧
          ChainCause before.definition.terms breach.typePath before.definition.memberSet
            between.definition.memberSet after.definition.memberSet breach := by
  -- Both steps find the type of every path of the first schema again, of its kind.
  have hchain : ∀ before ∈ first.declarations, ∃ between ∈ second.declarations,
      ∃ after ∈ third.declarations, between.path = before.path ∧ after.path = before.path ∧
        before.definition.kindName = after.definition.kindName ∧
        before.definition.memberSet.MayBecome between.definition.memberSet ∧
        between.definition.memberSet.MayBecome after.definition.memberSet := by
    intro before hbefore
    obtain ⟨between, hbetween, hpath, hkind, hmay⟩ :=
      exists_mayBecome_of_findings_eq_nil ha hb hstep hbefore
    obtain ⟨after, hafter, hpath', hkind', hmay'⟩ :=
      exists_mayBecome_of_findings_eq_nil hb hc hnext hbetween
    exact ⟨between, hbetween, after, hafter, hpath, hpath'.trans hpath, hkind.trans hkind', hmay,
      hmay'⟩
  cases h with
  | missing before hbefore habsent =>
      obtain ⟨-, -, after, hafter, -, hpath, -⟩ := hchain before hbefore
      exact absurd hpath (habsent after hafter)
  | kindChanged before after hbefore hafter hpath hkind =>
      obtain ⟨-, -, found, hfound, -, hpath', hkind', -⟩ := hchain before hbefore
      obtain rfl := TypeIndex.declaration_eq_of_build hc hafter hfound (hpath.trans hpath'.symm)
      exact absurd hkind' hkind
  | member before after hbefore hafter hpath hkind breach hbreach =>
      obtain ⟨between, hbetween, found, hfound, hpath', hpath'', -, hmay, hmay'⟩ :=
        hchain before hbefore
      obtain rfl := TypeIndex.declaration_eq_of_build hc hafter hfound (hpath.trans hpath''.symm)
      have htype := hbreach.typePath_eq
      refine ⟨hbreach.kind_ne before.definition.terms_ordered, before, hbefore, between, hbetween,
        after, hafter, htype.symm, hpath'.trans htype.symm, hpath.trans htype.symm, ?_⟩
      rw [htype]
      exact cause_of_memberBreach (Validation.wellFormed_of_validate hvalid hbetween)
        (Validation.wellFormed_of_validate hvalid' hafter) hmay hmay' hbreach

/-- If no step drops a reservation and the first one renumbers no member, no cause is left. -/
theorem not_chainCause (hkeeps : first.KeepsReservations second)
    (hkeeps' : second.KeepsReservations third) (hnumbers : first.KeepsNumbers second)
    {before between after : Declaration} (hbefore : before ∈ first.declarations)
    (hbetween : between ∈ second.declarations) (hafter : after ∈ third.declarations)
    (hpath : between.path = before.path) (hpath' : after.path = between.path)
    {terms : MemberTerms} {path : String} {breach : Breach} :
    ¬ChainCause terms path before.definition.memberSet between.definition.memberSet
      after.definition.memberSet breach := by
  obtain ⟨hcovers, hnames⟩ := hkeeps before hbefore between hbetween hpath
  obtain ⟨hcovers', hnames'⟩ := hkeeps' between hbetween after hafter hpath'
  intro h
  cases h with
  | conflict _ member _ _ _ hreserved hopen => exact hopen (hcovers _ hreserved)
  | numberReuse member _ _ hreserved hopen => exact hopen (hcovers _ hreserved)
  | nameReuse member _ _ hreserved hopen => exact hopen (hnames _ hreserved)
  | forgotten member _ _ _ hnumber hname hforgotten =>
      rcases hforgotten with hlost | hlost
      · exact hlost (hcovers' _ hnumber)
      · exact hlost (hnames' _ hname)
  | renumbered member kept hmem hkept hname hnumber =>
      exact hnumber (hnumbers before hbefore between hbetween hpath member hmem kept hkept hname)

/-- If the step from one valid schema to a second and that from the second to a third are each
without findings, then the findings over both steps remove no type, each of them is about a type of
all three schemas and has one of the causes, and there are none if neither step drops a reservation
and the first one renumbers no member. -/
theorem chain_findings (hfirst : Validation.validate first = .ok ())
    (hsecond : Validation.validate second = .ok ()) (hthird : Validation.validate third = .ok ()) :
    ∃ a b c, TypeIndex.build first = .ok a ∧ TypeIndex.build second = .ok b ∧
      TypeIndex.build third = .ok c ∧
      (findings a b = [] → findings b c = [] →
        (∀ finding ∈ findings a c, finding.kind ≠ .removedType ∧
          ∃ before ∈ first.declarations, ∃ between ∈ second.declarations,
            ∃ after ∈ third.declarations, before.path = finding.typePath ∧
              between.path = finding.typePath ∧ after.path = finding.typePath ∧
              ChainCause before.definition.terms finding.typePath before.definition.memberSet
                between.definition.memberSet after.definition.memberSet finding.breach) ∧
        (first.KeepsReservations second → second.KeepsReservations third →
          first.KeepsNumbers second → (analyze a c).compatible = true)) := by
  obtain ⟨a, ha⟩ := Validation.exists_build_of_validate hfirst
  obtain ⟨b, hb⟩ := Validation.exists_build_of_validate hsecond
  obtain ⟨c, hc⟩ := Validation.exists_build_of_validate hthird
  refine ⟨a, b, c, ha, hb, hc, fun hstep hnext => ?_⟩
  have hcause : ∀ finding ∈ findings a c, _ := fun finding hfinding =>
    cause_of_typeBreach hsecond hthird ha hb hc hstep hnext
      ((mem_breaches_findings ha hc).1 (List.mem_map_of_mem hfinding))
  refine ⟨hcause, fun hkeeps hkeeps' hnumbers => List.isEmpty_iff.2 ?_⟩
  rw [List.eq_nil_iff_forall_not_mem]
  intro finding hfinding
  obtain ⟨-, before, hbefore, between, hbetween, after, hafter, hpath, hpath', hpath'', h⟩ :=
    hcause finding hfinding
  exact not_chainCause hkeeps hkeeps' hnumbers hbefore hbetween hafter (hpath'.trans hpath.symm)
    (hpath''.trans hpath'.symm) h

end Chain

/-- A message whose reservations the next release drops. -/
def meterFirst : SchemaTree :=
  ⟨[{ path := "meter.proto", package := ["grid"]
      messages :=
        [{ name := "Meter"
           fields := [⟨"limit", 1, "int32", false, none⟩, ⟨"unit", 2, "string", false, none⟩,
             ⟨"total", 3, "int64", false, none⟩]
           reserved := ⟨[⟨9, 10⟩], ["rate"]⟩ }] }]⟩

/-- The next release moves `limit` and retires `unit`. -/
def meterSecond : SchemaTree :=
  ⟨[{ path := "meter.proto", package := ["grid"]
      messages :=
        [{ name := "Meter"
           fields := [⟨"limit", 5, "int32", false, none⟩, ⟨"total", 3, "int64", false, none⟩]
           reserved := ⟨[⟨2, 2⟩], ["unit"]⟩ }] }]⟩

/-- The last release retires `limit`, forgets `unit` and uses what the first one reserved. -/
def meterThird : SchemaTree :=
  ⟨[{ path := "meter.proto", package := ["grid"]
      messages :=
        [{ name := "Meter"
           fields := [⟨"total", 9, "int64", false, none⟩, ⟨"rate", 4, "int32", false, none⟩,
             ⟨"peak", 10, "int32", false, none⟩]
           reserved := ⟨[⟨5, 5⟩], ["limit"]⟩ }] }]⟩

/-- Both steps are compatible, and the findings over both show each of the causes. -/
theorem chain_findings_meter :
    ∃ a b c, TypeIndex.build meterFirst = .ok a ∧ TypeIndex.build meterSecond = .ok b ∧
      TypeIndex.build meterThird = .ok c ∧ findings a b = [] ∧ findings b c = [] ∧
      (findings a c).map Finding.breach =
        [.ofRemoval .field "grid.Meter" ⟨"limit", 1⟩, .ofRemoval .field "grid.Meter" ⟨"unit", 2⟩,
          .ofConflict .field "grid.Meter" ⟨"total", 3⟩ ⟨"total", 9⟩,
          .ofNumberReuse .field "grid.Meter" ⟨"peak", 10⟩,
          .ofNameReuse "grid.Meter" ⟨"rate", 4⟩] ∧
      ∀ finding ∈ findings a c, finding.kind ≠ .removedType ∧
        ∃ before ∈ meterFirst.declarations, ∃ between ∈ meterSecond.declarations,
          ∃ after ∈ meterThird.declarations, before.path = finding.typePath ∧
            between.path = finding.typePath ∧ after.path = finding.typePath ∧
            ChainCause before.definition.terms finding.typePath before.definition.memberSet
              between.definition.memberSet after.definition.memberSet finding.breach := by
  have hfirst : Validation.validate meterFirst = .ok () := rfl
  have hsecond : Validation.validate meterSecond = .ok () := rfl
  have hthird : Validation.validate meterThird = .ok () := rfl
  obtain ⟨a, b, c, ha, hb, hc, h⟩ := chain_findings hfirst hsecond hthird
  injection ha with ha
  injection hb with hb
  injection hc with hc
  subst ha hb hc
  exact ⟨_, _, _, rfl, rfl, rfl, rfl, rfl, rfl, (h rfl rfl).1⟩

end SchemaGate
