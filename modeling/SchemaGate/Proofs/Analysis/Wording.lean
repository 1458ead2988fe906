import SchemaGate.Proofs.Analysis.ByPath
import SchemaGate.Proofs.Analysis.EditLaws
import SchemaGate.Proofs.Analysis.Reordering
import SchemaGate.Proofs.Analysis.SameRules
import SchemaGate.Proofs.Schema.MemberOrder

/-!
# What the order of members shows in

The order in which the members of a type are listed does not show in what is found, but a finding on
a number that other members use names the first of them. So the explanations depend on the order
exactly if a number that no version reserves is used by a member of the candidate and by two others.
The main statement is `findings_reordered`.
-/

namespace SchemaGate

namespace MemberSet

/-- The other members that use the number of a member, unless members may share numbers. -/
def rivals (version : MemberSet) (member : Member) : List Member :=
  if version.allowAlias then []
  else version.members.filter fun other => other.number = member.number ∧ other.name ≠ member.name

/-- No version reserves the number of the member, and at least two other members use it. -/
def Contested (old new : MemberSet) (member : Member) : Prop :=
  ¬old.reserved.CoversNumber member.number ∧ ¬new.reserved.CoversNumber member.number ∧
    1 < (new.rivals member).length

/-- Whether a number is contested is decided by counting. -/
instance (old new : MemberSet) (member : Member) : Decidable (Contested old new member) :=
  inferInstanceAs (Decidable (_ ∧ _ ∧ _))

/-- The version with its members from the last to the first. -/
def reversed (version : MemberSet) : MemberSet :=
  { version with members := version.members.reverse }

variable {old new new' : MemberSet} {member : Member}

/-- A number is held by the first rival. -/
theorem liveHolder?_eq_head?_rivals :
    new.liveHolder? member.number member.name = (new.rivals member).head? := by
  unfold liveHolder? rivals
  split
  · rfl
  · rw [List.head?_filter]

/-- A number that no version reserves clashes with the first rival. -/
theorem numberClash?_eq_head?_rivals (hold : ¬old.reserved.CoversNumber member.number)
    (hnew : ¬new.reserved.CoversNumber member.number) :
    numberClash? old new member = (new.rivals member).head?.map .inUse := by
  rw [numberClash?, reservedIn?_eq_none_iff.2 ⟨hold, hnew⟩, liveHolder?_eq_head?_rivals]

/-- Distinct members have no rivals. -/
theorem Distinct.not_contested (h : new.Distinct) (hmem : member ∈ new.members) :
    ¬Contested old new member := by
  intro hcontested
  have hmany := hcontested.2.2
  have hnone := h.liveHolder?_eq_none hmem
  rw [liveHolder?_eq_head?_rivals, List.head?_eq_none_iff] at hnone
  simp [hnone] at hmany

/-- Rivals are rivals in any order. -/
theorem Reordered.rivals_perm (h : new.Reordered new') :
    (new'.rivals member).Perm (new.rivals member) := by
  rw [rivals, rivals, h.allowAlias]
  split
  · exact .refl _
  · exact h.members.filter _

/-- At most one item stays where it is in any order. -/
theorem eq_of_perm_of_length_le_one {α : Type} {items others : List α} (h : others.Perm items)
    (hlength : items.length ≤ 1) : others = items := by
  match items with
  | [] => exact h.eq_nil
  | [item] => exact h.eq_singleton
  | _ :: _ :: _ => simp at hlength

/-- A number that is not contested clashes with the same range or the same member in any order. -/
theorem Reordered.numberClash?_eq (h : new.Reordered new') (hfree : ¬Contested old new member) :
    numberClash? old new' member = numberClash? old new member := by
  rw [numberClash?, numberClash?, h.reserved]
  cases hreserved : reservedIn? old.reserved new.reserved member.number with
  | some found => rfl
  | none =>
      obtain ⟨hold, hnew⟩ := reservedIn?_eq_none_iff.1 hreserved
      have hfew : (new.rivals member).length ≤ 1 :=
        Nat.not_lt.1 fun hmany => hfree ⟨hold, hnew, hmany⟩
      rw [liveHolder?_eq_head?_rivals, liveHolder?_eq_head?_rivals,
        eq_of_perm_of_length_le_one h.rivals_perm hfew]

/-- If the members are turned around, then so are the rivals of a member. -/
theorem rivals_reversed : new.reversed.rivals member = (new.rivals member).reverse := by
  unfold rivals reversed
  split
  · rfl
  · exact List.filter_reverse

/-- The rivals are some of the members, so if no name is declared twice they differ in theirs. -/
theorem nodup_rivals (honce : (new.members.map (·.name)).Nodup) :
    ((new.rivals member).map (·.name)).Nodup := by
  refine honce.sublist (List.Sublist.map _ ?_)
  unfold rivals
  split
  · exact List.nil_sublist _
  · exact List.filter_sublist

/-- Of several items with different keys the first and the last have different keys. -/
theorem exists_ends {α β : Type} {key : α → β} {items : List α} (hkeys : (items.map key).Nodup)
    (hmany : 1 < items.length) :
    ∃ first last, items.head? = some first ∧ items.getLast? = some last ∧ key first ≠ key last := by
  match items with
  | [] => simp at hmany
  | [_] => simp at hmany
  | first :: second :: rest =>
      rw [List.map_cons, List.nodup_cons] at hkeys
      have hsome := List.getLast?_eq_some_getLast (List.cons_ne_nil second rest)
      refine ⟨first, _, rfl, List.getLast?_cons_cons.trans hsome, fun hkey => hkeys.1 ?_⟩
      rw [hkey]
      exact List.mem_map_of_mem (List.getLast_mem _)

/-- A contested number clashes with the first rival, and with another one if the members are turned
around. -/
theorem Contested.exists_holders (h : Contested old new member)
    (honce : (new.members.map (·.name)).Nodup) :
    ∃ first last : Member, numberClash? old new member = some (.inUse first) ∧
      numberClash? old new.reversed member = some (.inUse last) ∧ first.name ≠ last.name := by
  obtain ⟨hold, hnew, hmany⟩ := h
  have hnew' : ¬new.reversed.reserved.CoversNumber member.number := hnew
  obtain ⟨first, last, hhead, hlast, hname⟩ := exists_ends (nodup_rivals honce) hmany
  refine ⟨first, last, ?_, ?_, hname⟩
  · rw [numberClash?_eq_head?_rivals hold hnew, hhead, Option.map_some]
  · rw [numberClash?_eq_head?_rivals hold hnew', rivals_reversed, List.head?_reverse, hlast,
      Option.map_some]

end MemberSet

section Members

variable {terms : MemberTerms} {path : String} {old new new' : MemberSet}
  {member first last : Member}

/-- Different holders of a number are named by different explanations, however these begin. -/
theorem NumberClash.explanation_ne {opening verb : String} {number : Int}
    (hname : first.name ≠ last.name) :
    opening ++ (inUse last).text terms verb number ≠
      opening ++ (inUse first).text terms verb number := by
  intro h
  have htext := (String.append_right_inj opening).1 h
  have hholder : last.name = first.name := by
    simpa [NumberClash.text, String.append_assoc] using htext
  exact hname hholder.symm

/-- If the number of a member clashes with different members of two candidates, the same is found
but explained differently. -/
theorem exists_explained_differently (terms : MemberTerms) (path : String)
    (hcounts : new.Counts member) (hcounts' : new'.Counts member)
    (hfirst : numberClash? old new member = some (.inUse first))
    (hlast : numberClash? old new' member = some (.inUse last)) (hname : first.name ≠ last.name) :
    ∃ finding ∈ compareMembers terms path old new, ∃ other ∈ compareMembers terms path old new',
      other.breach = finding.breach ∧ other.message ≠ finding.message := by
  by_cases hlacks : old.Lacks member.name
  · have hreported {version : MemberSet} {finding : Finding} (hcounts : version.Counts member)
        (h : numberReuse? terms path old version member = some finding) :
        finding ∈ compareMembers terms path old version :=
      mem_compareMembers.2 (.inr (.inr ⟨member, hcounts, hlacks, .inl h⟩))
    refine ⟨_, hreported hcounts (Option.map_eq_some_iff.2 ⟨_, hfirst, rfl⟩), _,
      hreported hcounts' (Option.map_eq_some_iff.2 ⟨_, hlast, rfl⟩), rfl, ?_⟩
    exact NumberClash.explanation_ne hname
  · obtain ⟨before, hbefore, hkept⟩ := MemberSet.exists_counts hlacks
    have hreported {version : MemberSet} {finding : Finding} (hcounts : version.Counts member)
        (h : conflict? terms path old version before member = some finding) :
        finding ∈ compareMembers terms path old version :=
      mem_compareMembers.2 (.inr (.inl ⟨before, member, hbefore, hcounts, hkept.symm, h⟩))
    refine ⟨_, hreported hcounts (Option.map_eq_some_iff.2 ⟨_, hfirst, rfl⟩), _,
      hreported hcounts' (Option.map_eq_some_iff.2 ⟨_, hlast, rfl⟩), rfl, ?_⟩
    exact NumberClash.explanation_ne hname

/-- If no number is contested, the order of the members of both versions does not matter. -/
theorem compareMembers_eq_of_not_contested {old' : MemberSet} (hold : old.Reordered old')
    (hnew : new.Reordered new') (honce : (old.members.map (·.name)).Nodup)
    (honceNew : (new.members.map (·.name)).Nodup)
    (hfree : ∀ member ∈ new.members, ¬MemberSet.Contested old new member) :
    compareMembers terms path old' new' = compareMembers terms path old new := by
  rw [compareMembers_eq_of_reordered_old hold honce]
  exact compareMembers_eq_of_numberClash?_eq hnew honceNew fun member hmem =>
    hnew.numberClash?_eq (hfree member hmem)

end Members

section Reordering

/-- A type of the candidate has a member whose number is contested. -/
def SchemaTree.Contested (baseline candidate : SchemaTree) : Prop :=
  ∃ before ∈ baseline.declarations, ∃ after ∈ candidate.declarations, after.path = before.path ∧
    before.definition.kindName = after.definition.kindName ∧
    ∃ member ∈ after.definition.memberSet.members,
      MemberSet.Contested before.definition.memberSet after.definition.memberSet member

/-- Whether a number is contested is decided type by type. -/
instance (baseline candidate : SchemaTree) : Decidable (baseline.Contested candidate) :=
  inferInstanceAs (Decidable (∃ before ∈ baseline.declarations, ∃ after ∈ candidate.declarations,
    _ ∧ _ ∧ ∃ member ∈ after.definition.memberSet.members, _))

/-- A type with its members in another order is of the same kind. -/
theorem TypeDef.Reordered.kindName {definition other : TypeDef} (h : definition.Reordered other) :
    other.kindName = definition.kindName := by
  cases h <;> rfl

/-- The rules for members see the same members in another order. -/
theorem TypeDef.Reordered.memberSet {definition other : TypeDef} (h : definition.Reordered other) :
    definition.memberSet.Reordered other.memberSet := by
  cases h with
  | message h =>
      obtain ⟨-, hfields, -, -, -, hreserved⟩ := h
      exact ⟨hfields.symm.map _, hreserved, rfl⟩
  | enum h => exact ⟨h.constants.symm.map _, h.reserved, h.allowAlias⟩

/-- The rules see the same of a declaration and of one with the members in another order. -/
theorem Declaration.Reordered.sameRules {declaration other : Declaration}
    (h : declaration.Reordered other) : declaration.SameRules other :=
  ⟨h.path, h.definition.kindName, .of_perm h.definition.memberSet.members.symm
    (h.definition.memberSet.reserved ▸ ⟨.refl _, .refl _⟩)⟩

/-- A type with its members turned around has the members turned around. -/
theorem TypeDef.memberSet_withBody_reversedBody (definition : TypeDef) :
    (definition.withBody definition.reversedBody).memberSet = definition.memberSet.reversed := by
  cases definition with
  | message definition =>
      show MemberSet.mk (definition.fields.reverse.map Field.member) _ _ = _
      rw [List.map_reverse]
      rfl
  | enum definition =>
      show MemberSet.mk (definition.constants.reverse.map EnumConstant.member) _ _ = _
      rw [List.map_reverse]
      rfl

variable {baseline candidate baseline' candidate' : SchemaTree} {old new old' new' : TypeIndex}

/-- The rules see the same of a schema and of one with the members of its types in another order. -/
theorem SchemaTree.Reordered.sameRules (h : baseline.Reordered baseline') :
    baseline.SameRules baseline' := by
  refine ⟨fun declaration hdeclared => ?_, fun moved hmoved => ?_⟩
  · obtain ⟨moved, hmoved, hsame⟩ := exists_of_mem_of_forall₂ h.declarations.flip hdeclared
    exact ⟨moved, hmoved, hsame.sameRules⟩
  · obtain ⟨declaration, hdeclared, hsame⟩ := exists_of_mem_of_forall₂ h.declarations hmoved
    exact ⟨declaration, hdeclared, hsame.sameRules⟩

/-- Names that are declared once are declared once in any order. -/
theorem SchemaTree.Reordered.namesOnce (h : baseline.Reordered baseline')
    (honce : baseline.NamesOnce) : baseline'.NamesOnce := by
  intro moved hmoved
  obtain ⟨declaration, hdeclared, hsame⟩ := exists_of_mem_of_forall₂ h.declarations hmoved
  have hmembers := hsame.definition.memberSet.members.map (·.name)
  exact hmembers.nodup_iff.2 (honce declaration hdeclared)

/-- Enums allow aliases or not whatever the order of their constants. -/
theorem SchemaTree.Reordered.sameAliases (h : candidate.Reordered candidate')
    (hnew : TypeIndex.build candidate = .ok new) : candidate.SameAliases candidate' := by
  intro declaration hdeclared moved hmoved hpath
  obtain ⟨found, hfound, hsame⟩ := exists_of_mem_of_forall₂ h.declarations hmoved
  obtain rfl := TypeIndex.declaration_eq_of_build hnew hfound hdeclared
    (hsame.path.symm.trans hpath)
  exact hsame.definition.memberSet.allowAlias

end Reordering

section Explanations

variable {baseline candidate baseline' candidate' : SchemaTree} {old new old' new' : TypeIndex}

/-- The finding without its explanation. -/
def Finding.unexplained (finding : Finding) : Finding :=
  { finding with message := "" }

/-- Without its explanation a finding is what it is without wording and file, in the file of the
baseline's type. -/
theorem unexplained_eq {finding : Finding} (h : finding ∈ findings old new) :
    finding.unexplained =
      { finding.unworded with file := (old.find? finding.typePath).map (·.file) } := by
  obtain ⟨entry, hentry⟩ := exists_entry_of_mem_findings h
  rw [mem_findings_iff_findingsOn, findingsOn, hentry] at h
  rw [hentry, Option.map_some, ← file_eq_of_mem_findingsAt h]
  rfl

/-- The findings do not depend on the order of members, but for their explanations. -/
theorem unexplained_findings_eq (hold : TypeIndex.build baseline = .ok old)
    (hnew : TypeIndex.build candidate = .ok new) (honce : baseline.NamesOnce)
    (honceNew : candidate.NamesOnce) (h : baseline.Reordered baseline')
    (h' : candidate.Reordered candidate') (hold' : TypeIndex.build baseline' = .ok old')
    (hnew' : TypeIndex.build candidate' = .ok new') :
    (findings old' new').map Finding.unexplained = (findings old new).map Finding.unexplained := by
  have hunworded := unworded_findings_eq hold hnew hold' hnew' honce honceNew (h.namesOnce honce)
    (h'.namesOnce honceNew) h.sameRules h'.sameRules (h'.sameAliases hnew)
  have hfiles : (fun path => (old'.find? path).map (·.file)) =
      fun path => (old.find? path).map (·.file) := by
    funext path
    obtain ⟨hnone, hnone'⟩ | ⟨entry, found, hentry, hfound, -, hfile⟩ := h.find? hold hold' path
    · rw [hnone, hnone']
    · rw [hentry, hfound, Option.map_some, Option.map_some, hfile]
  -- The paths of the types say in which files the findings are.
  have hfiled (old new : TypeIndex) : (findings old new).map Finding.unexplained =
      ((findings old new).map Finding.unworded).map fun finding =>
        { finding with file := (fun path => (old.find? path).map (·.file)) finding.typePath } := by
    rw [List.map_map]
    exact List.map_congr_left fun finding hfinding => unexplained_eq hfinding
  rw [hfiled, hfiled, hfiles, hunworded]

/-- If no number is contested, the findings do not depend on the order of members at all. -/
theorem findings_eq_of_not_contested (hold : TypeIndex.build baseline = .ok old)
    (hnew : TypeIndex.build candidate = .ok new) (honce : baseline.NamesOnce)
    (honceNew : candidate.NamesOnce) (h : baseline.Reordered baseline')
    (h' : candidate.Reordered candidate') (hold' : TypeIndex.build baseline' = .ok old')
    (hnew' : TypeIndex.build candidate' = .ok new') (hfree : ¬baseline.Contested candidate) :
    findings old' new' = findings old new := by
  have hpaths (path : String) : findingsOn old' new' path = findingsOn old new path := by
    unfold findingsOn
    obtain ⟨hnone, hnone'⟩ | ⟨entry, found, hentry, hfound, hsame, hfile⟩ := h.find? hold hold' path
    · rw [hnone, hnone']
    rw [hentry, hfound]
    simp only [findingsAt, hfile]
    refine congrArg (List.map _) ?_
    obtain ⟨hnone, hnone'⟩ | ⟨after, moved, hafter, hmoved, hsame', -⟩ := h'.find? hnew hnew' path
    · rw [hnone, hnone']
      exact compareTypes_none_congr hsame.kindName
    rw [hafter, hmoved]
    refine compareTypes_congr hsame.kindName hsame'.kindName fun hkind => ?_
    have hbefore := (TypeIndex.find?_iff_of_build hold).1 hentry
    have hdeclared := (TypeIndex.find?_iff_of_build hnew).1 hafter
    exact compareMembers_eq_of_not_contested hsame.memberSet hsame'.memberSet (honce _ hbefore)
      (honceNew _ hdeclared) fun member hmember hcontested =>
        hfree ⟨_, hbefore, _, hdeclared, rfl, hkind, member, hmember, hcontested⟩
  have hsame : (findings old' new').map id = (findings old new).map id :=
    map_findings_eq_of_findingsOn (fun _ => rfl) fun path => by rw [hpaths path]
  rwa [List.map_id, List.map_id] at hsame

/-- If a number is contested, the explanations change when the members of its type are turned
around. -/
theorem exists_findings_ne_of_contested (hold : TypeIndex.build baseline = .ok old)
    (hnew : TypeIndex.build candidate = .ok new) (honceNew : candidate.NamesOnce)
    (h : baseline.Contested candidate) :
    ∃ candidate' new', candidate.Reordered candidate' ∧ TypeIndex.build candidate' = .ok new' ∧
      findings old new' ≠ findings old new := by
  obtain ⟨before, hbefore, after, hafter, hpath, hkind, member, hmember, hcontested⟩ := h
  have hreordered := SchemaTree.reordered_reversedAt hnew hafter
  obtain ⟨new', hnew'⟩ := hreordered.exists_build hnew
  refine ⟨_, new', hreordered, hnew', fun hsame => ?_⟩
  -- The type is still declared, and its members are now from the last to the first.
  have hmoved := List.mem_map_of_mem
    (f := Declaration.rewriteAt after.path after.definition.reversedBody) hafter
  rw [← SchemaTree.declarations_rewriteAt] at hmoved
  have hreversed : (after.definition.rewriteAt after.path after.definition.reversedBody
      after.path).memberSet = after.definition.memberSet.reversed :=
    TypeDef.memberSet_rewriteAt_self.trans after.definition.memberSet_withBody_reversedBody
  have honce := honceNew after hafter
  obtain ⟨first, last, hfirst, hlast, hname⟩ := hcontested.exists_holders honce
  have honce' : (after.definition.memberSet.reversed.members.map (·.name)).Nodup :=
    ((List.reverse_perm _).map _).nodup_iff.2 honce
  obtain ⟨finding, hfinding, other, hother, hbreach, hmessage⟩ :=
    exists_explained_differently before.definition.terms before.path
      ((MemberSet.counts_iff_mem honce).2 hmember)
      ((MemberSet.counts_iff_mem honce').2 (List.mem_reverse.2 hmember)) hfirst hlast hname
  rw [← hreversed] at hother
  have hreported := mem_findings_of_mem_compareMembers hold hnew hbefore hafter hpath hkind hfinding
  have hreported' := mem_findings_of_mem_compareMembers hold hnew' hbefore hmoved hpath
    (hkind.trans TypeDef.kindName_rewriteAt.symm) hother
  rw [hsame] at hreported'
  -- Both are among the findings on the candidate, of which no two report the same.
  have heq := List.inj_on_of_nodup_map (nodup_breaches_findings old new) hreported' hreported
    hbreach
  exact hmessage (congrArg (·.message) heq)

/-- No number is contested in a candidate that has been validated. -/
theorem not_contested_of_validate (h : Validation.validate candidate = .ok ()) :
    ¬baseline.Contested candidate := by
  intro hsome
  obtain ⟨before, -, after, hafter, -, -, member, hmember, hcontested⟩ := hsome
  have hformed := Validation.wellFormed_of_validate h hafter
  exact hformed.toDistinct.not_contested hmember hcontested

end Explanations

/-- Let two schemas be indexed in which no type declares a name twice, and let the members of any
types of both be listed in another order. Then the schemas can be indexed again and have the same
findings in the same order, but for the explanations. The explanations are the same for every order
of the members exactly if no number of the candidate is contested, and so they are whenever the
candidate has been validated. -/
theorem findings_reordered {baseline candidate : SchemaTree} {old new : TypeIndex}
    (hold : TypeIndex.build baseline = .ok old) (hnew : TypeIndex.build candidate = .ok new)
    (honce : baseline.NamesOnce) (honceNew : candidate.NamesOnce) :
    (∀ baseline' candidate', baseline.Reordered baseline' → candidate.Reordered candidate' →
      ∃ old' new', TypeIndex.build baseline' = .ok old' ∧ TypeIndex.build candidate' = .ok new' ∧
        (findings old' new').map Finding.unexplained =
          (findings old new).map Finding.unexplained) ∧
    ((∀ baseline' candidate' old' new', baseline.Reordered baseline' →
        candidate.Reordered candidate' → TypeIndex.build baseline' = .ok old' →
        TypeIndex.build candidate' = .ok new' → findings old' new' = findings old new) ↔
      ¬baseline.Contested candidate) ∧
    (Validation.validate candidate = .ok () → ¬baseline.Contested candidate) := by
  refine ⟨fun baseline' candidate' h h' => ?_, ⟨fun hsame hcontested => ?_, fun hfree => ?_⟩,
    not_contested_of_validate⟩
  · obtain ⟨old', hold'⟩ := h.exists_build hold
    obtain ⟨new', hnew'⟩ := h'.exists_build hnew
    exact ⟨old', new', hold', hnew',
      unexplained_findings_eq hold hnew honce honceNew h h' hold' hnew'⟩
  · obtain ⟨candidate', new', h', hnew', hne⟩ :=
      exists_findings_ne_of_contested hold hnew honceNew hcontested
    exact hne (hsame baseline candidate' old new' (.refl baseline) h' hold hnew')
  · intro baseline' candidate' old' new' h h' hold' hnew'
    exact findings_eq_of_not_contested hold hnew honce honceNew h h' hold' hnew' hfree

/-- A schema with one message of three fields. -/
def accountBefore : SchemaTree :=
  ⟨[{ path := "account.proto", package := ["bank"]
      messages :=
        [{ name := "Account"
           fields := [⟨"owner", 1, "string", false, none⟩, ⟨"currency", 2, "string", false, none⟩,
             ⟨"limit", 3, "string", false, none⟩] }] }]⟩

/-- The schema with all three fields on one tag. The order of the last two is a parameter. -/
def accountAfter (second third : String) : SchemaTree :=
  ⟨[{ path := "account.proto", package := ["bank"]
      messages :=
        [{ name := "Account"
           fields := [⟨"owner", 1, "string", false, none⟩, ⟨second, 1, "string", false, none⟩,
             ⟨third, 1, "string", false, none⟩] }] }]⟩

/-- The tag of the three fields is contested, so what is found does not depend on their order but
the explanations do. -/
theorem findings_reordered_account :
    ∃ old new, TypeIndex.build accountBefore = .ok old ∧
      TypeIndex.build (accountAfter "currency" "limit") = .ok new ∧ accountBefore.NamesOnce ∧
      (accountAfter "currency" "limit").NamesOnce ∧
      accountBefore.Contested (accountAfter "currency" "limit") ∧
      (∀ candidate', (accountAfter "currency" "limit").Reordered candidate' →
        ∃ old' new', TypeIndex.build accountBefore = .ok old' ∧
          TypeIndex.build candidate' = .ok new' ∧
          (findings old' new').map Finding.unexplained =
            (findings old new).map Finding.unexplained) ∧
      ¬∀ baseline' candidate' old' new', accountBefore.Reordered baseline' →
        (accountAfter "currency" "limit").Reordered candidate' →
        TypeIndex.build baseline' = .ok old' → TypeIndex.build candidate' = .ok new' →
        findings old' new' = findings old new := by
  have hcontested : accountBefore.Contested (accountAfter "currency" "limit") := by decide
  obtain ⟨hfound, hexplained, -⟩ := @findings_reordered accountBefore
    (accountAfter "currency" "limit") _ _ rfl rfl (by decide) (by decide)
  exact ⟨_, _, rfl, rfl, by decide, by decide, hcontested,
    fun candidate' h => hfound accountBefore candidate' (.refl accountBefore) h,
    fun hsame => hexplained.1 hsame hcontested⟩

/-- The explanations may depend on the order in which the members are listed: of the fields on one
tag the first is named. -/
theorem explanation_depends_on_order :
    ¬∀ baseline candidate baseline' candidate' old new old' new',
      TypeIndex.build baseline = .ok old → TypeIndex.build candidate = .ok new →
      baseline.NamesOnce → candidate.NamesOnce → baseline.Reordered baseline' →
      candidate.Reordered candidate' → TypeIndex.build baseline' = .ok old' →
      TypeIndex.build candidate' = .ok new' → findings old' new' = findings old new := by
  intro h
  have hreordered :
      (accountAfter "currency" "limit").Reordered (accountAfter "limit" "currency") :=
    .cons ⟨rfl, rfl, .cons (.intro rfl (.cons _ (.swap _ _ _)) rfl .nil .nil rfl) .nil, .nil⟩ .nil
  have hsame := h accountBefore (accountAfter "currency" "limit") accountBefore
    (accountAfter "limit" "currency") _ _ _ _ rfl rfl (by decide) (by decide) (.refl accountBefore)
    hreordered rfl rfl
  exact absurd (congrArg (List.map (·.message)) hsame) (by decide)

end SchemaGate
