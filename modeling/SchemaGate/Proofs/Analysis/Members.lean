import Mathlib.Data.List.Nodup
import SchemaGate.Analysis.Comparison
import SchemaGate.Proofs.NameMap
import SchemaGate.Schema.Path

/-!
# The members that count

Of several members of one name only the last counts, and a version lacks a name if none of its
members has it. The main statements are `mem_values_byName` and `contains_byName_eq_false`, which
read the table of members by name through these two notions, and `numberClash?_eq_none_iff`, which
says when the number of a member is free.
-/

namespace SchemaGate

namespace Reservations

/-- A number lies in one of the reserved ranges. -/
def CoversNumber (reserved : Reservations) (number : Int) : Prop :=
  ∃ range ∈ reserved.ranges, range.start.toInt ≤ number ∧ number ≤ range.stop.toInt

/-- Whether a number is covered is decided range by range. -/
instance (reserved : Reservations) (number : Int) : Decidable (reserved.CoversNumber number) :=
  inferInstanceAs (Decidable (∃ range ∈ reserved.ranges, _ ∧ _))

/-- A number is found to be reserved exactly when a range covers it. -/
@[simp] theorem reservesNumber_iff_covers {reserved : Reservations} {number : Int} :
    reserved.reservesNumber number = true ↔ reserved.CoversNumber number := by
  simp [reservesNumber_iff, CoversNumber]

/-- No range is found for a number exactly when none covers it. -/
theorem rangeContaining?_eq_none_iff {reserved : Reservations} {number : Int} :
    reserved.rangeContaining? number = none ↔ ¬reserved.CoversNumber number := by
  rw [← reservesNumber_iff_covers, reservesNumber]
  simp

end Reservations

/-- No version is found to reserve a number exactly when neither covers it. -/
theorem reservedIn?_eq_none_iff {old new : Reservations} {number : Int} :
    reservedIn? old new number = none ↔ ¬old.CoversNumber number ∧ ¬new.CoversNumber number := by
  rw [← Reservations.rangeContaining?_eq_none_iff, ← Reservations.rangeContaining?_eq_none_iff,
    reservedIn?]
  cases old.rangeContaining? number <;> simp

namespace MemberSet

/-- The member counts for its name: it is declared, and no later member has the name. -/
def Counts (version : MemberSet) (member : Member) : Prop :=
  ∃ before after, version.members = before ++ member :: after ∧
    ∀ other ∈ after, other.name ≠ member.name

/-- No member has the name. -/
def Lacks (version : MemberSet) (name : String) : Prop :=
  ∀ member ∈ version.members, member.name ≠ name

/-- Whether a version lacks a name is decided member by member. -/
instance (version : MemberSet) (name : String) : Decidable (version.Lacks name) :=
  inferInstanceAs (Decidable (∀ member ∈ version.members, _))

/-- The number of a member of the candidate is reserved by a version, or a declared member of the
candidate of another name, whether it counts or not, has it although numbers may not be shared. -/
def NumberTaken (old new : MemberSet) (member : Member) : Prop :=
  old.reserved.CoversNumber member.number ∨ new.reserved.CoversNumber member.number ∨
    new.allowAlias = false ∧
      ∃ other ∈ new.members, other.number = member.number ∧ other.name ≠ member.name

/-- Every name is declared once, and every number once unless numbers may be shared. -/
structure Distinct (version : MemberSet) : Prop where
  namesOnce : (version.members.map (·.name)).Nodup
  numbersOnce : version.allowAlias = false → (version.members.map (·.number)).Nodup

/-- The members of a version obey the rules that a schema has to obey by itself: they are distinct,
and no number or name in use is reserved. -/
structure WellFormed (version : MemberSet) : Prop extends Distinct version where
  numberFree : ∀ member ∈ version.members, ¬version.reserved.CoversNumber member.number
  nameFree : ∀ member ∈ version.members, member.name ∉ version.reserved.names

variable {version old new : MemberSet} {member other : Member} {name : String}

/-- A member that counts is declared. -/
theorem Counts.mem (h : version.Counts member) : member ∈ version.members := by
  obtain ⟨before, after, hsplit, -⟩ := h
  simp [hsplit]

/-- The table of members by name holds under a name the member that counts for it. -/
theorem find?_byName_eq_some_iff :
    version.byName.find? name = some member ↔ version.Counts member ∧ member.name = name := by
  rw [byName, NameMap.find?_ofList_eq_some_iff]
  constructor
  · rintro ⟨before, after, hsplit, hafter⟩
    obtain ⟨earlier, rest, hmembers, rfl, hrest⟩ := List.map_eq_append_iff.1 hsplit
    obtain ⟨found, later, rfl, hfound, rfl⟩ := List.map_eq_cons_iff.1 hrest
    obtain ⟨rfl, rfl⟩ := Prod.mk.inj hfound
    refine ⟨⟨earlier, later, hmembers, ?_⟩, rfl⟩
    intro other hother
    exact hafter _ (List.mem_map_of_mem hother)
  · rintro ⟨⟨before, after, hmembers, hafter⟩, rfl⟩
    refine ⟨_, _, by rw [hmembers, List.map_append, List.map_cons], ?_⟩
    simpa using hafter

/-- The values of the table of members by name are the members that count. -/
theorem mem_values_byName : member ∈ version.byName.values ↔ version.Counts member := by
  simp [NameMap.mem_values_iff, find?_byName_eq_some_iff]

/-- The table of members by name has no entry under a name exactly when the version lacks it. -/
theorem contains_byName_eq_false : version.byName.contains name = false ↔ version.Lacks name := by
  rw [← Bool.not_eq_true, byName, NameMap.contains_ofList]
  simp [Lacks]

/-- The members that count come in strictly increasing order of name. -/
theorem pairwise_values_byName :
    version.byName.values.Pairwise fun a b => a.name < b.name :=
  NameMap.pairwise_values fun _ _ h => (find?_byName_eq_some_iff.1 h).2

/-- A name that a version does not lack has a member that counts for it. -/
theorem exists_counts (h : ¬version.Lacks name) :
    ∃ member, version.Counts member ∧ member.name = name := by
  rw [← contains_byName_eq_false, Bool.not_eq_false, NameMap.contains,
    Option.isSome_iff_exists] at h
  obtain ⟨member, hfind⟩ := h
  exact ⟨member, find?_byName_eq_some_iff.1 hfind⟩

/-- If no name is declared twice, every member counts. -/
theorem counts_iff_mem (h : (version.members.map (·.name)).Nodup) :
    version.Counts member ↔ member ∈ version.members := by
  refine ⟨Counts.mem, fun hmem => ?_⟩
  obtain ⟨before, after, hsplit⟩ := List.append_of_mem hmem
  rw [hsplit, List.map_append, List.map_cons, List.nodup_append, List.nodup_cons] at h
  refine ⟨before, after, hsplit, fun other hother hname => ?_⟩
  -- A later member of the name would repeat it.
  exact h.2.1.1 (hname ▸ List.mem_map_of_mem hother)

/-- Where members may not share numbers, distinct members of one number are the same member. -/
theorem Distinct.eq_of_number_eq (h : version.Distinct) (halias : version.allowAlias = false)
    (hmem : member ∈ version.members) (hother : other ∈ version.members)
    (hnumber : other.number = member.number) : other = member :=
  List.inj_on_of_nodup_map (h.numbersOnce halias) hother hmem hnumber

/-- If the members are distinct, no number of a member is held against it. -/
theorem Distinct.liveHolder?_eq_none (h : version.Distinct) (hmem : member ∈ version.members) :
    version.liveHolder? member.number member.name = none := by
  cases halias : version.allowAlias with
  | true => exact liveHolder?_eq_none_of_allowAlias halias member.number member.name
  | false =>
      rw [liveHolder?, halias, if_neg Bool.false_ne_true, List.find?_eq_none]
      intro other hother hheld
      obtain ⟨hnumber, hname⟩ := of_decide_eq_true hheld
      exact hname (congrArg (·.name) (h.eq_of_number_eq halias hmem hother hnumber))

/-- If the members of the candidate are distinct, only reservations can take a number. -/
theorem Distinct.numberTaken_iff (h : new.Distinct) (hmem : member ∈ new.members) :
    NumberTaken old new member ↔
      old.reserved.CoversNumber member.number ∨ new.reserved.CoversNumber member.number := by
  refine ⟨?_, Or.imp id .inl⟩
  rintro (hold | hnew | ⟨halias, other, hother, hnumber, hname⟩)
  · exact .inl hold
  · exact .inr hnew
  · exact absurd (congrArg (·.name) (h.eq_of_number_eq halias hmem hother hnumber)) hname

/-- In a well-formed candidate only the baseline's reservations can take the number of a member. -/
theorem WellFormed.numberTaken_iff (h : new.WellFormed) (hmem : member ∈ new.members) :
    NumberTaken old new member ↔ old.reserved.CoversNumber member.number := by
  rw [h.toDistinct.numberTaken_iff hmem]
  exact or_iff_left (h.numberFree member hmem)

/-- In a well-formed candidate the number of a member clashes with a range of the baseline or not at
all. -/
theorem WellFormed.numberClash?_eq (h : new.WellFormed) (hmem : member ∈ new.members) :
    numberClash? old new member =
      (old.reserved.rangeContaining? member.number).map (.reserved .baseline) := by
  unfold numberClash? reservedIn?
  cases old.reserved.rangeContaining? member.number with
  | some range => rfl
  | none =>
      rw [Reservations.rangeContaining?_eq_none_iff.2 (h.numberFree member hmem),
        h.toDistinct.liveHolder?_eq_none hmem]
      rfl

/-- In a well-formed candidate the name of a member is reserved by the baseline or not at all. -/
theorem WellFormed.nameReservedIn?_eq (h : new.WellFormed) (hmem : member ∈ new.members) :
    nameReservedIn? old.reserved new.reserved member.name =
      if member.name ∈ old.reserved.names then some .baseline else none := by
  simp only [nameReservedIn?, Reservations.reservesName_iff, if_neg (h.nameFree member hmem)]

/-- The number of a member of the candidate is free exactly when the analysis finds no clash. -/
theorem numberClash?_eq_none_iff :
    numberClash? old new member = none ↔ ¬NumberTaken old new member := by
  have hreserved := @reservedIn?_eq_none_iff old.reserved new.reserved member.number
  unfold numberClash? NumberTaken liveHolder?
  -- The reservations of both versions are asked first, and only then the other members.
  cases hfound : reservedIn? old.reserved new.reserved member.number with
  | some found =>
      rw [hfound, ← not_or] at hreserved
      have hcovers : old.reserved.CoversNumber member.number ∨
          new.reserved.CoversNumber member.number := not_not.1 fun h => nomatch hreserved.2 h
      simp [← or_assoc, hcovers]
  | none =>
      obtain ⟨hold, hnew⟩ := hreserved.1 hfound
      cases halias : new.allowAlias <;> simp [hold, hnew]

/-- A new name is free exactly when the analysis finds no version that reserves it. -/
theorem nameReservedIn?_eq_none_iff {old new : Reservations} :
    nameReservedIn? old new name = none ↔ ¬(name ∈ old.names ∨ name ∈ new.names) := by
  unfold nameReservedIn?
  rw [← Reservations.reservesName_iff, ← Reservations.reservesName_iff]
  cases old.reservesName name <;> cases new.reservesName name <;> simp

end MemberSet

end SchemaGate
