import SchemaGate.Evolution
import SchemaGate.Proofs.Analysis.Compatible
import SchemaGate.Proofs.Loading.Reload
import SchemaGate.Proofs.Lock.Verdict

/-!
# Runs over releases

A lock file that follows releases holds the snapshot of the last release that was accepted, and a
snapshot gets the verdicts of the schema that it was taken of. So a run of the lock file is a run of
a gate that holds a schema, `Gated`, and a step of it fails only if its release cannot be loaded.
The main statements are `gated_follow` and `Gated.exists_history`: under a policy that changes
nothing, a type that was accepted once stays to the end of the run.
-/

namespace SchemaGate

open Validation (Valid)

/-- The verdict with its files named by the paths that come back from a snapshot. -/
def Verdict.relisted (verdict : Verdict) : Verdict :=
  verdict.map (Finding.relocated fun path => Protopath.normalize (Protopath.ofPath path))

/-- Whether anything blocks does not depend on the files. -/
@[simp] theorem Verdict.compatible_relisted (verdict : Verdict) :
    verdict.relisted.compatible = verdict.compatible :=
  Verdict.compatible_map _ verdict

/-- A run over releases from a schema that is held, with what each step comes to and the lock file
after it. A release is checked against the schema that is held, and takes its place if it is
compatible. -/
inductive Gated (config : Config) :
    SchemaTree → List (List UInt8) → List (Except LoadError Verdict × LockFile) → Prop
  /-- There are no more releases. -/
  | done (held : SchemaTree) : Gated config held [] []
  /-- The release cannot be loaded. -/
  | refused {held : SchemaTree} {release : List UInt8} {releases : List (List UInt8)}
      {cause : LoadError} {steps : List (Except LoadError Verdict × LockFile)} :
      config.loader.ofBytes release = .error cause → Gated config held releases steps →
      Gated config held (release :: releases) ((.error cause, .ofTree held) :: steps)
  /-- The release is not compatible with what is held. -/
  | kept {held candidate : SchemaTree} {release : List UInt8} {releases : List (List UInt8)}
      {verdict : Verdict} {steps : List (Except LoadError Verdict × LockFile)} :
      config.loader.ofBytes release = .ok candidate →
      check config.policy held candidate = .ok verdict → verdict.compatible = false →
      Gated config held releases steps →
      Gated config held (release :: releases) ((.ok verdict.relisted, .ofTree held) :: steps)
  /-- The release is compatible with what is held. -/
  | taken {held candidate : SchemaTree} {release : List UInt8} {releases : List (List UInt8)}
      {verdict : Verdict} {steps : List (Except LoadError Verdict × LockFile)} :
      config.loader.ofBytes release = .ok candidate →
      check config.policy held candidate = .ok verdict → verdict.compatible = true →
      Gated config candidate releases steps →
      Gated config held (release :: releases) ((.ok verdict.relisted, .ofTree candidate) :: steps)

/-- The types of one schema are declared by another one under their paths, with their kinds. -/
def SchemaTree.TypesIn (tree other : SchemaTree) : Prop :=
  ∀ before ∈ tree.declarations, ∃ after ∈ other.declarations,
    after.path = before.path ∧ before.definition.kindName = after.definition.kindName

namespace SchemaTree.TypesIn

/-- A schema declares its own types. -/
theorem refl (tree : SchemaTree) : tree.TypesIn tree :=
  fun before hbefore => ⟨before, hbefore, rfl, rfl⟩

/-- Types that are kept by each of two steps are kept by both. -/
theorem trans {first second third : SchemaTree} (h : first.TypesIn second)
    (hnext : second.TypesIn third) : first.TypesIn third := by
  intro before hbefore
  obtain ⟨middle, hmiddle, hpath, hkind⟩ := h before hbefore
  obtain ⟨after, hafter, hpath', hkind'⟩ := hnext middle hmiddle
  exact ⟨after, hafter, hpath'.trans hpath, hkind.trans hkind'⟩

/-- What each schema keeps of the one before it is kept all the way. -/
instance : Trans TypesIn TypesIn TypesIn := ⟨trans⟩

end SchemaTree.TypesIn

variable {config : Config} {held candidate : SchemaTree} {index : TypeIndex} {release : List UInt8}

namespace LockFile

/-- A release that cannot be loaded leaves the lock file as it is. -/
theorem advance_of_ofBytes_eq_error {cause : LoadError}
    (h : config.loader.ofBytes release = .error cause) (lock : LockFile) :
    lock.advance config release = (.error cause, lock) := by
  have hjudged : judgeRelease config lock release = .error cause := by
    rw [judgeRelease, h]
    rfl
  rw [advance, hjudged]
  rfl

/-- A release that is loaded is checked against the schema whose snapshot the lock file is, and its
snapshot takes the place of that one exactly if it is compatible. -/
theorem advance_ofTree (hvalidate : config.loader.validate = true) (hheld : Valid held index)
    (hload : config.loader.ofBytes release = .ok candidate) :
    ∃ verdict, check config.policy held candidate = .ok verdict ∧
      (ofTree held).advance config release =
        (.ok verdict.relisted, if verdict.compatible then ofTree candidate else ofTree held) := by
  obtain ⟨⟨new, hnew⟩, -⟩ := Loader.valid_of_ofBytes hvalidate hload
  obtain ⟨back, hback, -⟩ := exists_build_relisted hheld
  refine ⟨_, check_of_build hheld.build hnew.build, ?_⟩
  -- The lock file is read as what comes back, which gets the verdict of the schema held.
  have hverdict : check config.policy held.relisted candidate =
      .ok (config.policy.judge (findings index new)).relisted := by
    rw [check_of_build hback hnew.build, findings_relisted_old hheld hback,
      (Policy.rewording_relocated _).judge_map]
    rfl
  have hjudged : judgeRelease config (ofTree held) release =
      .ok ((config.policy.judge (findings index new)).relisted, candidate) := by
    rw [judgeRelease, hload, ok_bind, toTree_ofTree, orLoadError_ok, ok_bind, hverdict]
    rfl
  rw [advance, hjudged]
  simp [next, Except.map]

/-- A lock file that holds the snapshot of a valid schema goes through releases as a gate that holds
the schema. -/
theorem gated_follow (hvalidate : config.loader.validate = true) (hheld : Valid held index)
    (releases : List (List UInt8)) :
    Gated config held releases ((ofTree held).follow config releases) := by
  induction releases generalizing held index with
  | nil => exact .done held
  | cons release releases ih =>
      rw [follow]
      cases hload : config.loader.ofBytes release with
      | error cause =>
          rw [advance_of_ofBytes_eq_error hload]
          exact .refused hload (ih hheld)
      | ok candidate =>
          obtain ⟨verdict, hcheck, hstep⟩ := advance_ofTree hvalidate hheld hload
          obtain ⟨⟨new, hnew⟩, -⟩ := Loader.valid_of_ofBytes hvalidate hload
          rw [hstep]
          cases hcompatible : verdict.compatible with
          | false => exact .kept hload hcheck hcompatible (ih hheld)
          | true => exact .taken hload hcheck hcompatible (ih hnew)

/-- The first release is checked against the schema without files. -/
theorem gated_follow_empty (hvalidate : config.loader.validate = true)
    (releases : List (List UInt8)) : Gated config {} releases (follow config ⟨[]⟩ releases) := by
  obtain ⟨index, hempty⟩ := Validation.validate_eq_ok_iff_valid.1
    (show Validation.validate {} = .ok () from rfl)
  exact gated_follow hvalidate hempty releases

end LockFile

namespace Gated

/-- Under a policy that changes nothing a release that is compatible declares the types of the
schema held. -/
theorem typesIn_of_compatible (hpolicy : config.policy.isDefault = true) {verdict : Verdict}
    (hcheck : check config.policy held candidate = .ok verdict)
    (hcompatible : verdict.compatible = true) : held.TypesIn candidate := by
  obtain ⟨old, hold, hcheck⟩ := exists_of_bind_eq_ok hcheck
  obtain ⟨new, hnew, hcheck⟩ := exists_of_bind_eq_ok hcheck
  cases hcheck
  have hnone : findings old new = [] := by
    rw [Policy.judge, if_pos hpolicy] at hcompatible
    exact List.isEmpty_iff.1 hcompatible
  intro before hbefore
  obtain ⟨after, hafter, hpath, hkind, -⟩ :=
    exists_mayBecome_of_findings_eq_nil hold hnew hnone hbefore
  exact ⟨after, hafter, hpath, hkind⟩

/-- Under a policy that changes nothing the lock files of a run are snapshots of schemas each of
which declares all types of those before it. -/
theorem exists_history (hpolicy : config.policy.isDefault = true) {releases : List (List UInt8)}
    {steps : List (Except LoadError Verdict × LockFile)} (h : Gated config held releases steps) :
    ∃ history : List SchemaTree, steps.map (·.2) = history.map LockFile.ofTree ∧
      (held :: history).Pairwise SchemaTree.TypesIn := by
  simp only [← List.isChain_iff_pairwise]
  induction h with
  | done held => exact ⟨[], rfl, .singleton held⟩
  | @refused held _ _ _ _ _ _ ih =>
      obtain ⟨history, hlocks, hkeep⟩ := ih
      exact ⟨held :: history, congrArg (_ :: ·) hlocks, .cons_cons (.refl held) hkeep⟩
  | @kept held _ _ _ _ _ _ _ _ _ ih =>
      obtain ⟨history, hlocks, hkeep⟩ := ih
      exact ⟨held :: history, congrArg (_ :: ·) hlocks, .cons_cons (.refl held) hkeep⟩
  | @taken held candidate _ _ _ _ _ hcheck hcompatible _ ih =>
      obtain ⟨history, hlocks, hkeep⟩ := ih
      exact ⟨candidate :: history, congrArg (_ :: ·) hlocks,
        .cons_cons (typesIn_of_compatible hpolicy hcheck hcompatible) hkeep⟩

end Gated

end SchemaGate
