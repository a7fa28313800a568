/-
# What a file goal can judge

`FileWriteCommittedChecker` checks a write again by rules of its own.  For a write
that the isolated file tools prepared and executed they agree with those of the tools
in all but one: the checker wants every component of the model's path to be a name,
and the tools also take a path that starts with a dot.  One effect of the predicate's
revision with such a path makes the whole assessment fail (`matchWrite_dotted`); without one the
assessment is a decision, with the right verdict, whatever the order of the effects
(`assess_judges`).
-/

import Kolyan.Goals.FileWrite
import Kolyan.Tools.Sharing

namespace Kolyan
namespace Goals

open Paths Checks Policy Tasks Tools

variable {codec : GoalCodec} {checker : FileWriteCommittedChecker} {criterion : GoalCriterion}
  {source : VerifiedGoalSource} {predicate : FileWriteCommittedPredicateV1} {effect : VerifiedEffectProof}

section Statement

/-- A path whose first component is a dot. -/
def Dotted (path : String) : Prop := (components path.toList).head? = some .curDir

/-- An effect that the isolated file tools of a revision prepared, over some state of the
file system, and whose result, if it has one, they made. -/
def MadeBy (codec : GoalCodec) (revision : String) (effect : VerifiedEffectProof) : Prop :=
  ∃ (tools : IsolatedFileTools) (s : Snapshot), tools.decode = codec.operation ∧ tools.adapterRevision = .ok revision ∧
    tools.prepare codec.sha256 s effect.prepared.call = .ok effect.prepared ∧
    ∀ result, effect.result = .ok result → Executed codec.toFileCodec tools effect.prepared.call result

/-- An effect that has written, without an error, what the predicate expects to where it
expects it. -/
def Wrote (codec : GoalCodec) (predicate : FileWriteCommittedPredicateV1) (effect : VerifiedEffectProof) : Prop :=
  related predicate effect = true ∧ effect.completed = true ∧ ∃ path content binding,
    codec.operation effect.prepared.call = .ok (.write path content) ∧
    ExactFileBinding.ofValue effect.prepared.executionBinding = some binding ∧
    content.utf8ByteSize = predicate.expectedBytes ∧ codec.contentSha256 content = predicate.expectedSha256 ∧
    binding.workspace = predicate.workspace ∧ binding.parent = predicate.parent ∧ binding.leaf = predicate.leaf

/-- The assessment that a predicate is owed. -/
structure Judges (codec : GoalCodec) (checker : FileWriteCommittedChecker) (criterion : GoalCriterion)
    (predicate : FileWriteCommittedPredicateV1) (source : VerifiedGoalSource) (decision : ComputedGoalDecision) : Prop where
  assessed : checker.assess codec criterion source = .ok decision
  incomplete : source.coverage ≠ .complete → decision.verdict = .indeterminate
  satisfied : source.coverage = .complete → (decision.verdict = .satisfied ↔ ∃ effect ∈ source.effects, Wrote codec predicate effect)
  unsatisfied : source.coverage = .complete → (∀ effect ∈ source.effects, ¬Wrote codec predicate effect) →
    decision.verdict = .unsatisfied
  order : ∀ other : VerifiedGoalSource, other.binding = source.binding → other.coverage = source.coverage →
    other.through = source.through → other.effects.Perm source.effects → checker.assess codec criterion other = .ok decision

end Statement

section Writes

theorem components_normal {path : List Char} (habsolute : path.head? ≠ some '/')
    (hstays : (components path).any Component.escapes = false) (hdot : (components path).head? ≠ some .curDir) :
    ∀ c ∈ components path, ∃ name, c = .normal name := by
  have hrest : ∀ c ∈ (pieces path).filterMap (fun name =>
      if name = [] ∨ name = ['.'] then none
      else if name = ['.', '.'] then some Component.parentDir
      else some (.normal name)), c = .parentDir ∨ ∃ name, c = .normal name := by
    intro c hc
    obtain ⟨name, -, hname⟩ := List.mem_filterMap.1 hc
    split_ifs at hname
    · exact .inl (Option.some.inj hname).symm
    · exact .inr ⟨name, (Option.some.inj hname).symm⟩
  intro c hc
  have hescapes : c.escapes = false := by
    have hall := List.any_eq_false.1 hstays c hc
    rwa [Bool.not_eq_true] at hall
  rw [components, if_neg habsolute] at hc hdot
  split_ifs at hc hdot with hcur
  · exact absurd rfl hdot
  · rcases hrest c hc with rfl | hnormal
    · exact Bool.noConfusion hescapes
    · exact hnormal

/-- **What the tools prepare of a write.** -/
structure PreparedWrite (codec : GoalCodec) (prepared : PreparedCall) (path content : String) (binding : ExactFileBinding) :
    Prop where
  operation : codec.operation prepared.call = .ok (.write path content)
  read : ExactFileBinding.ofValue prepared.executionBinding = some binding
  directories : Goals.directories binding.workspace binding.parent = .ok ()
  leaf : Goals.leaf binding.leaf = .ok ()
  protectedRoots : ∀ root ∈ binding.protectedRoots, Goals.physical root = .ok () ∧
    ¬root <+: binding.target ∧ ¬root <+: binding.workspace.physicalPath
  claim : prepared.claim = {
    toolName := "file.write"
    capabilities := [.filesystemWrite]
    effects := [.create, .update]
    resource := { path := some (physicalText binding.target) }
    idempotency := .nonIdempotent }
  sandbox : prepared.requirements.processSandbox = true
  relative : path.toList.head? ≠ some '/'
  nul : Char.ofNat 0 ∉ path.toList
  named : fileName path.toList ≠ none
  stays : (components path.toList).any Component.escapes = false

theorem physical_of_ok {path : List Name} (h : Tools.physical path = .ok ()) : Goals.physical path = .ok () := by
  simp only [Tools.physical, bind_eq_ok, reject_eq_ok, not_not] at h
  obtain ⟨_, hlength, _, hproper, hnul⟩ := h
  rw [Goals.physical, reject_eq_ok]
  simp only [not_or, not_not]
  exact ⟨hnul, hlength, hproper⟩

theorem bound_of_prepare {s : Snapshot} {workspace resource : List Name} {protectedRoots : List (List Name)}
    {binding : ExactFileBinding} (h : ExactFileBinding.prepare s workspace resource protectedRoots = .ok binding) :
    binding.Normal ∧ directories binding.workspace binding.parent = .ok () ∧ Goals.leaf binding.leaf = .ok () ∧
      ∀ root ∈ binding.protectedRoots, Goals.physical root = .ok () ∧
        ¬root <+: binding.target ∧ ¬root <+: binding.workspace.physicalPath := by
  simp only [ExactFileBinding.prepare, bind_eq_ok, pure_eq_ok] at h
  obtain ⟨_, -, _, -, last, -, root, hroot, parent, hparent, _, -, _, hvalid, _, -, rfl⟩ := h
  simp only [ExactDirectoryBinding.capture, Tools.traverse, bind_eq_ok, pure_eq_ok] at hroot hparent
  obtain ⟨_, ⟨_, -, _, -, rfl⟩, rfl⟩ := hroot
  obtain ⟨_, ⟨_, -, _, -, rfl⟩, rfl⟩ := hparent
  simp only [ExactFileBinding.validate, bind_eq_ok, reject_eq_ok, forEach_eq_ok, not_or, not_not] at hvalid
  obtain ⟨_, hworkspace, _, hparent, _, hleaf, _, hinside, _, -, hprotected⟩ := hvalid
  have hproper : ∀ {path : List Name}, Tools.physical path = .ok () → ∀ name ∈ path, Proper name := by
    intro path hpath
    simp only [Tools.physical, bind_eq_ok, reject_eq_ok, not_not] at hpath
    obtain ⟨_, -, _, hproper, -⟩ := hpath
    exact hproper
  refine ⟨⟨hproper hworkspace, hproper hparent, fun root hroot => ?_⟩, ?_, ?_, fun root hroot => ?_⟩
  · obtain ⟨_, hroot, -⟩ := hprotected root hroot
    exact hproper hroot
  · simp only [directories, bind_eq_ok, forEach_eq_ok, reject_eq_ok, not_or, not_not]
    refine ⟨(), ?_, hinside.1, hinside.2.1, hinside.2.2.2⟩
    have hdirectory : ∀ {path : List Name}, Tools.physical path = .ok () →
        directory ⟨path, path.inits.map s.identity⟩ = .ok () := by
      intro path hpath
      simp only [directory, bind_eq_ok, reject_eq_ok, List.length_map, List.length_inits, not_not]
      exact ⟨(), physical_of_ok hpath, trivial⟩
    rintro binding hmem
    rcases List.mem_cons.1 hmem with rfl | hmem
    · exact hdirectory hworkspace
    · obtain rfl := List.mem_singleton.1 hmem
      exact hdirectory hparent
  · simp only [Tools.leaf, Goals.leaf, reject_eq_ok] at hleaf ⊢
    exact fun h => hleaf h.symm
  · obtain ⟨_, hroot, houtside⟩ := hprotected root hroot
    exact ⟨physical_of_ok hroot, houtside⟩

/-- **The tools prepare no write that the checker does not understand**, but for its path. -/
theorem preparedWrite {tools : IsolatedFileTools} {s : Snapshot} {prepared : PreparedCall}
    (hdecode : tools.decode = codec.operation) (hprepare : tools.prepare codec.sha256 s prepared.call = .ok prepared)
    (hname : prepared.call.name = "file.write") :
    ∃ path content binding, PreparedWrite codec prepared path content binding ∧
      tools.operation prepared.call = .ok (.write path content) := by
  simp only [IsolatedFileTools.prepare, IsolatedFileTools.operation, bind_eq_ok, mapError_eq_ok, pure_eq_ok] at hprepare
  obtain ⟨_, ⟨operation, hoperation, _, hvalid, rfl⟩, resource, -, binding, hbinding, revision, -, draft, hdraft,
    hbound⟩ := hprepare
  have hclaim := (withExecutionBinding_claim hbound).trans (new_claim hdraft)
  obtain ⟨hnormal, hdirectories, hleaf, hprotected⟩ := bound_of_prepare hbinding
  simp only [PreparedCall.new, PreparedCall.withExecutionBinding, PreparedCall.validateFields, bind_eq_ok, reject_eq_ok,
    pure_eq_ok, not_or, not_not] at hdraft hbound
  obtain ⟨_, ⟨_, -, hfields, -⟩, _, -, rfl⟩ := hdraft
  obtain ⟨_, -, _, -, _, -, hprepared⟩ := hbound
  obtain ⟨path, content, rfl⟩ : ∃ path content, operation = .write path content := by
    rw [hname] at hfields
    cases operation with
    | read path => exact absurd hfields (show "file.write" ≠ "file.read" by decide)
    | write path content => exact ⟨path, content, rfl⟩
    | edit path oldText newText expectedSha256 => exact absurd hfields (show "file.write" ≠ "file.edit" by decide)
  have hwrite : tools.operation prepared.call = .ok (.write path content) := by
    simp only [IsolatedFileTools.operation, bind_eq_ok, mapError_eq_ok, pure_eq_ok]
    exact ⟨_, hoperation, (), hvalid, rfl⟩
  simp only [validateOperation, bind_eq_ok, reject_eq_ok, not_or] at hvalid
  obtain ⟨_, -, _, ⟨-, hnul, hrelative, hnamed, hstays⟩, -⟩ := hvalid
  refine ⟨path, content, binding, ⟨hdecode ▸ hoperation, ?_, hdirectories, hleaf, hprotected, ?_, ?_, hrelative, hnul,
    hnamed, by rwa [Bool.not_eq_true] at hstays⟩, hwrite⟩
  · rw [← hprepared]
    exact ExactFileBinding.ofValue_toValue hnormal
  · rw [hclaim, binding_target hbinding]
    rfl
  · rw [← hprepared]

/-- **A path that starts with a dot is refused**, whatever came of the write. -/
theorem matchWrite_dotted {path content : String} {binding : ExactFileBinding}
    (h : PreparedWrite codec effect.prepared path content binding) (hdot : Dotted path) :
    ∀ found, matchWrite codec predicate effect ≠ .ok found := by
  intro found hfound
  simp only [matchWrite, checkClaim, h.operation, h.read, mapError, ok_bind, expect_some, bind_eq_ok, reject_eq_ok,
    not_or] at hfound
  obtain ⟨_, ⟨_, -, _, -, _, -, _, -, -, -, -, hnormal⟩, -⟩ := hfound
  refine hnormal (List.any_eq_true.2 ⟨.curDir, List.mem_of_head? hdot, rfl⟩)

theorem checkResult_executed {tools : IsolatedFileTools} {prepared : PreparedCall} {path content : String}
    {result : ToolResult} (hoperation : tools.operation prepared.call = .ok (.write path content))
    (h : Executed codec.toFileCodec tools prepared.call result) :
    checkResult codec prepared path content (.ok result) = .ok true := by
  obtain ⟨operation, stdout, _, hcall, hdecoded, hread⟩ := h.decoded
  obtain rfl := Except.ok.inj (hoperation.symm.trans hcall)
  simp only [decode, receiptFits, bind_eq_ok, mapError_eq_ok, reject_eq_ok, pure_eq_ok, not_or, not_not] at hdecoded
  obtain ⟨output, -, _, hpath, _, hsha, _, ⟨hcontent, -, hmatches⟩, rfl⟩ := hdecoded
  rw [matchesContent, Bool.and_eq_true, decide_eq_true_eq, decide_eq_true_eq] at hmatches
  have haccepted : ¬(output.path ≠ path ∨ output.content.isSome = true ∨ ¬canonicalSha256 output.sha256 = true ∨
      output.bytes ≠ content.utf8ByteSize ∨ output.sha256 ≠ codec.contentSha256 content) := by
    simp only [not_or, not_not]
    exact ⟨hpath, hcontent, hsha, hmatches⟩
  rw [checkResult, reject_of_not (not_not.2 h.callId), h.noError, hread]
  simp only [ok_bind, Bool.false_eq_true, if_false, mapError, reject_of_not haccepted]
  rfl

theorem matchWrite_plain {tools : IsolatedFileTools} {path content : String} {binding : ExactFileBinding}
    (h : PreparedWrite codec effect.prepared path content binding)
    (hoperation : tools.operation effect.prepared.call = .ok (.write path content))
    (hresult : ∀ result, effect.result = .ok result → Executed codec.toFileCodec tools effect.prepared.call result)
    (hplain : ¬Dotted path) :
    matchWrite codec predicate effect = .ok (effect.result.toBool && targetMatches codec predicate binding content) := by
  have hclaim : checkClaim effect.prepared binding path = .ok () := by
    simp only [checkClaim, bind_eq_ok, forEach_eq_ok, reject_eq_ok, not_or]
    refine ⟨(), h.directories, (), h.leaf, (), fun root hroot => ?_, (), ?_, h.relative, h.nul, ?_, ?_⟩
    · exact ⟨(), (h.protectedRoots root hroot).1, (h.protectedRoots root hroot).2⟩
    · rw [h.claim, h.sandbox]
      exact ⟨fun hne => hne rfl, fun hne => hne rfl, fun hne => hne rfl, fun hne => hne rfl, fun hne => hne rfl⟩
    · intro hnil
      refine h.named ?_
      rw [fileName, hnil]
      rfl
    · rw [Bool.not_eq_true, List.any_eq_false]
      intro c hc
      obtain ⟨name, rfl⟩ := components_normal h.relative h.stays hplain c hc
      exact Bool.false_ne_true
  have hchecked : checkResult codec effect.prepared path content effect.result = .ok effect.result.toBool := by
    cases hr : effect.result with
    | error error => rfl
    | ok result => exact checkResult_executed hoperation (hresult result hr)
  simp only [matchWrite, h.operation, h.read, mapError, ok_bind, expect_some, hclaim, hchecked]
  rfl

end Writes

section Tallies

variable {binding : AttemptBinding} {effects : List VerifiedEffectProof} {tally : Tally}
  {found : VerifiedEffectProof → Bool}

/-- What the loop finds, given what every related effect has written. -/
def tallied (predicate : FileWriteCommittedPredicateV1) (found : VerifiedEffectProof → Bool) (tally : Tally)
    (effects : List VerifiedEffectProof) : Tally where
  witnesses := tally.witnesses ++ effects.filter fun effect => related predicate effect && effect.completed && found effect
  failed := tally.failed + effects.countP fun effect => related predicate effect && !effect.completed
  unrelated := tally.unrelated + effects.countP fun effect => !related predicate effect
  mismatched := tally.mismatched + effects.countP fun effect => related predicate effect && effect.completed && !found effect

theorem foldlM_tally (hscope : ∀ effect ∈ effects, effect.scope.execution = binding.execution ∧
      effect.scope.agentSnapshotDigest = some binding.constraintsDigest)
    (hfound : ∀ effect ∈ effects, related predicate effect = true → matchWrite codec predicate effect = .ok (found effect)) :
    effects.foldlM (tallyEffect codec predicate binding) tally = .ok (tallied predicate found tally effects) := by
  induction effects generalizing tally with
  | nil => simp [tallied, pure, Except.pure]
  | cons effect effects ih =>
    obtain ⟨⟨hexecution, hdigest⟩, hscope⟩ := List.forall_mem_cons.1 hscope
    obtain ⟨hmatch, hfound⟩ := List.forall_mem_cons.1 hfound
    have hsame : ¬(effect.scope.execution.sessionId ≠ binding.execution.sessionId ∨
        effect.scope.execution.turnId ≠ binding.execution.turnId ∨
        effect.scope.execution.executionId ≠ binding.execution.executionId ∨
        effect.scope.agentSnapshotDigest ≠ some binding.constraintsDigest) := by
      simp [hexecution, hdigest]
    have hstep : tallyEffect codec predicate binding tally effect = .ok (tallied predicate found tally [effect]) := by
      rw [tallyEffect, reject_of_not hsame, ok_bind]
      cases hrelated : related predicate effect with
      | false => simp [tallied, hrelated, pure, Except.pure]
      | true =>
        rw [if_pos rfl, hmatch hrelated, ok_bind]
        cases hcompleted : effect.completed <;> cases hwritten : found effect <;>
          simp [tallied, hrelated, hcompleted, hwritten, pure, Except.pure]
    rw [List.foldlM_cons, hstep, ok_bind, ih hscope hfound]
    simp only [tallied, List.filter_cons, List.filter_nil, List.countP_cons, List.countP_nil, Nat.zero_add,
      Nat.add_assoc, List.append_assoc]
    congr 2
    · split_ifs <;> simp
    all_goals omega

theorem matched_of_foldlM {last : Tally} (h : effects.foldlM (tallyEffect codec predicate binding) tally = .ok last) :
    ∀ effect ∈ effects, related predicate effect = true → ∃ found, matchWrite codec predicate effect = .ok found := by
  induction effects generalizing tally with
  | nil => exact fun _ hmem => absurd hmem List.not_mem_nil
  | cons effect effects ih =>
    rw [List.foldlM_cons] at h
    obtain ⟨next, hstep, hrest⟩ := bind_eq_ok.1 h
    refine List.forall_mem_cons.2 ⟨fun hrelated => ?_, ih hrest⟩
    rw [tallyEffect, hrelated, if_pos rfl] at hstep
    obtain ⟨_, -, hstep⟩ := bind_eq_ok.1 hstep
    obtain ⟨found, hfound, -⟩ := bind_eq_ok.1 hstep
    exact ⟨found, hfound⟩

theorem receiptLe_iff {a b : VerifiedEffectProof} : receiptLe a b = true ↔
    a.sources.receipt.cursor < b.sources.receipt.cursor ∨
      a.sources.receipt.cursor = b.sources.receipt.cursor ∧ a.sources.receipt.eventId ≤ b.sources.receipt.eventId := by
  simp [receiptLe]

/-- **The first witness does not depend on their order**, when their receipts are different. -/
theorem mergeSort_congr {l l' : List VerifiedEffectProof} (hperm : l.Perm l')
    (hreceipts : (l.map fun effect => effect.sources.receipt.eventId).Nodup) :
    l.mergeSort receiptLe = l'.mergeSort receiptLe := by
  have htrans : ∀ a b c : VerifiedEffectProof, receiptLe a b = true → receiptLe b c = true → receiptLe a c = true := by
    intro a b c hab hbc
    rw [receiptLe_iff] at hab hbc ⊢
    rcases hab with hab | ⟨hab, hab'⟩
    · rcases hbc with hbc | ⟨hbc, -⟩
      · exact .inl (hab.trans hbc)
      · exact .inl (hbc ▸ hab)
    · rcases hbc with hbc | ⟨hbc, hbc'⟩
      · exact .inl (hab ▸ hbc)
      · exact .inr ⟨hab.trans hbc, hab'.trans hbc'⟩
  have htotal : ∀ a b : VerifiedEffectProof, (receiptLe a b || receiptLe b a) = true := by
    intro a b
    rw [Bool.or_eq_true, receiptLe_iff, receiptLe_iff]
    rcases lt_trichotomy a.sources.receipt.cursor b.sources.receipt.cursor with hlt | heq | hgt
    · exact .inl (.inl hlt)
    · rcases le_total a.sources.receipt.eventId b.sources.receipt.eventId with hle | hle
      · exact .inl (.inr ⟨heq, hle⟩)
      · exact .inr (.inr ⟨heq.symm, hle⟩)
    · exact .inr (.inl hgt)
  refine List.Perm.eq_of_pairwise (fun a b ha hb hab hba => ?_) (List.pairwise_mergeSort htrans htotal l)
    (List.pairwise_mergeSort htrans htotal l')
    ((List.mergeSort_perm l _).trans (hperm.trans (List.mergeSort_perm l' _).symm))
  rw [receiptLe_iff] at hab hba
  have hid : a.sources.receipt.eventId = b.sources.receipt.eventId := by
    rcases hab with hab | ⟨hab, hab'⟩ <;> rcases hba with hba | ⟨hba, hba'⟩
    · omega
    · omega
    · omega
    · exact le_antisymm hab' hba'
  have ha' : a ∈ l := (List.mergeSort_perm l _).mem_iff.1 ha
  have hb' : b ∈ l := hperm.mem_iff.2 ((List.mergeSort_perm l' _).mem_iff.1 hb)
  exact List.inj_on_of_nodup_map hreceipts ha' hb' hid

theorem verdictOf_congr {other : VerifiedGoalSource} (hcoverage : other.coverage = source.coverage)
    (hthrough : other.through = source.through) (hperm : other.effects.Perm source.effects) :
    verdictOf codec predicate other (tallied predicate found ⟨[], 0, 0, 0⟩ other.effects) =
      verdictOf codec predicate source (tallied predicate found ⟨[], 0, 0, 0⟩ source.effects) := by
  have hwitnesses : ((other.effects.filter fun effect =>
        related predicate effect && effect.completed && found effect).map fun effect => effect.sources.receipt.eventId).Nodup :=
    other.receipts.sublist (List.filter_sublist.map _)
  simp only [verdictOf, hcoverage, hthrough, hperm.length_eq, tallied, List.nil_append,
    mergeSort_congr (hperm.filter _) hwitnesses, hperm.countP_eq]

end Tallies

section Verdicts

theorem matched_of_made (hmade : MadeBy codec predicate.toolRevision effect) (hrelated : related predicate effect = true)
    (hplain : ∀ path content, codec.operation effect.prepared.call = .ok (.write path content) → ¬Dotted path) :
    ∃ found, matchWrite codec predicate effect = .ok found ∧
      (effect.completed = true ∧ found = true ↔ Wrote codec predicate effect) := by
  obtain ⟨tools, s, hdecode, -, hprepare, hresult⟩ := hmade
  have hname : effect.prepared.call.name = "file.write" := by
    rw [related, Bool.and_eq_true, decide_eq_true_eq] at hrelated
    exact hrelated.1
  obtain ⟨path, content, binding, hwrite, hoperation⟩ := preparedWrite hdecode hprepare hname
  refine ⟨_, matchWrite_plain hwrite hoperation hresult (hplain path content hwrite.operation), ?_⟩
  constructor
  · rintro ⟨hcompleted, hfound⟩
    simp only [targetMatches, Bool.and_eq_true, decide_eq_true_eq] at hfound
    obtain ⟨-, ⟨⟨⟨hworkspace, hparent⟩, hleaf⟩, hbytes⟩, hsha⟩ := hfound
    exact ⟨hrelated, hcompleted, path, content, binding, hwrite.operation, hwrite.read, hbytes.symm, hsha.symm,
      hworkspace.symm, hparent.symm, hleaf.symm⟩
  · rintro ⟨-, hcompleted, path', content', binding', hoperation', hread, hbytes, hsha, hworkspace, hparent, hleaf⟩
    obtain ⟨rfl, rfl⟩ : path = path' ∧ content = content' := by
      simpa using hwrite.operation.symm.trans hoperation'
    obtain rfl := Option.some.inj (hwrite.read.symm.trans hread)
    refine ⟨hcompleted, ?_⟩
    have hok : effect.result.toBool = true := by
      rw [VerifiedEffectProof.completed] at hcompleted
      cases hr : effect.result with
      | error error => simp [hr] at hcompleted
      | ok result => rfl
    simp [targetMatches, hok, hbytes, hsha, hworkspace, hparent, hleaf]

variable (codec source predicate) in
theorem verdictOf_right {tally : Tally} (hcompleted : ∀ effect ∈ tally.witnesses, effect.completed = true) :
    ∃ decision, verdictOf codec predicate source tally = .ok decision ∧
      (source.coverage ≠ .complete → decision.verdict = .indeterminate) ∧
      (source.coverage = .complete → tally.witnesses ≠ [] → decision.verdict = .satisfied) ∧
      (source.coverage = .complete → tally.witnesses = [] → decision.verdict = .unsatisfied) := by
  by_cases hcoverage : source.coverage = .complete
  · cases hhead : (tally.witnesses.mergeSort receiptLe).head? with
    | none =>
      have hnil : tally.witnesses = [] :=
        ((List.mergeSort_perm _ receiptLe).symm.trans (List.head?_eq_none_iff.1 hhead ▸ List.Perm.refl _)).eq_nil
      rw [verdictOf, if_neg (not_not.2 hcoverage), hhead]
      exact ⟨_, rfl, fun hne => absurd hcoverage hne, fun _ hne => absurd hnil hne, fun _ _ => rfl⟩
    | some witness =>
      have hwitness : witness ∈ tally.witnesses :=
        (List.mergeSort_perm _ _).mem_iff.1 (List.mem_of_head? hhead)
      obtain ⟨result, hresult⟩ : ∃ result, witness.result = .ok result := by
        have hw := hcompleted witness hwitness
        rw [VerifiedEffectProof.completed] at hw
        cases hr : witness.result with
        | error error => simp [hr] at hw
        | ok result => exact ⟨result, rfl⟩
      rw [verdictOf, if_neg (not_not.2 hcoverage), hhead]
      simp only [hresult, mapError, ok_bind]
      exact ⟨_, rfl, fun hne => absurd hcoverage hne, fun _ _ => rfl,
        fun _ hnil => absurd (hnil ▸ hwitness) List.not_mem_nil⟩
  · rw [verdictOf, if_pos hcoverage]
    exact ⟨_, rfl, fun _ => rfl, fun h => absurd h hcoverage, fun h => absurd h hcoverage⟩

/-- **When a file goal judges its source.**  A predicate that was accepted, a source for
its invocation, and effects of the predicate's revision that the isolated file tools
prepared and executed: the assessment is a decision, indeterminate without complete
coverage, else satisfied exactly by a write of what is expected to where it is expected,
and it is the same for every order of the effects, if and only if none of these effects
is of a path that starts with a dot. -/
theorem assess_judges (hpredicate : checker.predicate codec criterion = .ok predicate)
    (hinvocation : criterion.invocationId = source.binding.invocationId)
    (hmade : ∀ effect ∈ source.effects, related predicate effect = true → MadeBy codec predicate.toolRevision effect) :
    (∃ decision, Judges codec checker criterion predicate source decision) ↔
      ∀ effect ∈ source.effects, related predicate effect = true → ∀ path content,
        codec.operation effect.prepared.call = .ok (.write path content) → ¬Dotted path := by
  constructor
  · rintro ⟨decision, hdecision⟩ effect hmem hrelated path content hoperation hdot
    have hassessed := hdecision.assessed
    simp only [FileWriteCommittedChecker.assess, bind_eq_ok] at hassessed
    obtain ⟨_, hsame, _, -, tally, htally, -⟩ := hassessed
    obtain rfl := Except.ok.inj (hpredicate.symm.trans hsame)
    obtain ⟨found, hfound⟩ := matched_of_foldlM htally effect hmem hrelated
    obtain ⟨tools, s, hdecode, -, hprepare, -⟩ := hmade effect hmem hrelated
    have hname : effect.prepared.call.name = "file.write" := by
      rw [related, Bool.and_eq_true, decide_eq_true_eq] at hrelated
      exact hrelated.1
    obtain ⟨path', content', binding, hwrite, -⟩ := preparedWrite hdecode hprepare hname
    obtain ⟨rfl, rfl⟩ : path = path' ∧ content = content' := by
      simpa using hoperation.symm.trans hwrite.operation
    exact matchWrite_dotted hwrite hdot found hfound
  · intro hplain
    let found : VerifiedEffectProof → Bool := fun effect => (matchWrite codec predicate effect).toOption.getD false
    have hmatched : ∀ effect ∈ source.effects, related predicate effect = true →
        matchWrite codec predicate effect = .ok (found effect) ∧
          (effect.completed = true ∧ found effect = true ↔ Wrote codec predicate effect) := by
      intro effect hmem hrelated
      obtain ⟨value, hvalue, hwrote⟩ := matched_of_made (hmade effect hmem hrelated) hrelated (hplain effect hmem hrelated)
      have hsame : found effect = value := by
        show (matchWrite codec predicate effect).toOption.getD false = value
        rw [hvalue]
        rfl
      exact ⟨hsame ▸ hvalue, hsame ▸ hwrote⟩
    let tally := tallied predicate found ⟨[], 0, 0, 0⟩ source.effects
    have hwitness : ∀ effect, effect ∈ tally.witnesses ↔ effect ∈ source.effects ∧ Wrote codec predicate effect := by
      intro effect
      show effect ∈ [] ++ source.effects.filter _ ↔ _
      rw [List.nil_append, List.mem_filter, Bool.and_eq_true, Bool.and_eq_true, and_assoc]
      refine and_congr_right fun hmem => ⟨fun h => ((hmatched effect hmem h.1).2).1 h.2, fun h => ⟨h.1, ?_⟩⟩
      exact ((hmatched effect hmem h.1).2).2 h
    have hassess : ∀ other : VerifiedGoalSource, other.binding = source.binding → other.effects.Perm source.effects →
        checker.assess codec criterion other =
          verdictOf codec predicate other (tallied predicate found ⟨[], 0, 0, 0⟩ other.effects) := by
      intro other hbinding hperm
      have hloop : other.effects.foldlM (tallyEffect codec predicate other.binding) ⟨[], 0, 0, 0⟩ =
          .ok (tallied predicate found ⟨[], 0, 0, 0⟩ other.effects) :=
        foldlM_tally other.inScope fun effect hmem hrelated => (hmatched effect (hperm.mem_iff.1 hmem) hrelated).1
      rw [FileWriteCommittedChecker.assess, hpredicate, ok_bind, hbinding, reject_of_not (not_not.2 hinvocation), ok_bind,
        ← hbinding, hloop, ok_bind]
    have hcompleted : ∀ effect ∈ tally.witnesses, effect.completed = true := fun effect hmem =>
      ((hwitness effect).1 hmem).2.2.1
    obtain ⟨decision, hdecision, hincomplete, hsatisfied, hunsatisfied⟩ :=
      verdictOf_right codec source predicate hcompleted
    have hnil : tally.witnesses = [] ↔ ∀ effect ∈ source.effects, ¬Wrote codec predicate effect := by
      rw [List.eq_nil_iff_forall_not_mem]
      simp only [hwitness, not_and]
    refine ⟨decision, (hassess source rfl (List.Perm.refl _)).trans hdecision, hincomplete, fun hcoverage => ⟨?_, ?_⟩, ?_, ?_⟩
    · intro hverdict
      by_contra hnone
      have hempty := hnil.2 fun effect hmem hwrote => hnone ⟨effect, hmem, hwrote⟩
      rw [hunsatisfied hcoverage hempty] at hverdict
      cases hverdict
    · rintro ⟨effect, hmem, hwrote⟩
      refine hsatisfied hcoverage fun hempty => ?_
      exact hnil.1 hempty effect hmem hwrote
    · exact fun hcoverage hnone => hunsatisfied hcoverage (hnil.2 hnone)
    · intro other hbinding hcoverage hthrough hperm
      rw [hassess other hbinding hperm, verdictOf_congr hcoverage hthrough hperm]
      exact hdecision

def zeros : String := String.ofList (List.replicate 64 '0')

/-- The directory `/r`. -/
def oneDirectory : ExactDirectoryBinding := ⟨["r".toList], [⟨0, 0⟩, ⟨0, 0⟩]⟩

/-- An empty write to `/r/a`. -/
def onePredicate : FileWriteCommittedPredicateV1 where
  schemaVersion := 1
  toolRevision := "file-worker"
  workspace := oneDirectory
  parent := oneDirectory
  leaf := "a".toList
  expectedBytes := 0
  expectedSha256 := zeros

/-- A codec that reads the calls, the one result and the one predicate of this example. -/
def oneCodec : GoalCodec where
  operation := oneTools.decode
  result text := if text = "receipt" then .ok ⟨"a", 0, zeros, none⟩ else .error "data did not match"
  contentSha256 _ := zeros
  sha256 _ := zeros
  predicate _ := .ok onePredicate

def oneChecker : FileWriteCommittedChecker where
  key := ⟨"file_write_committed", "1"⟩
  trustedToolRevisions := ["file-worker"]

def oneCriterion : GoalCriterion where
  id := "goal"
  invocationId := "root"
  checker := oneChecker.key
  predicate := .null
  predicateDigest := zeros

def onePrepared (path : String) : PreparedCall where
  call := writeCall "w" path
  toolRevision := "file-worker"
  claim := {
    toolName := "file.write"
    capabilities := [.filesystemWrite]
    effects := [.create, .update]
    resource := { path := some "/r/a" }
    idempotency := .nonIdempotent }
  requirements := { processSandbox := true, maxOutputBytes := 1024, timeoutMs := 1000 }
  executionBinding := ({
    workspace := oneDirectory
    parent := oneDirectory
    leaf := "a".toList
    targetIdentity := some ⟨0, 0⟩
    protectedRoots := [] } : ExactFileBinding).toValue
  digest := zeros

def oneSource (path : String) (result : Except Turn.ToolError ToolResult) (status : Driver.ReceiptStatus) : VerifiedGoalSource where
  binding := {
    attemptId := "attempt"
    invocationId := "root"
    execution := ⟨"session", "turn", "execution"⟩
    agent := ⟨"agent", "1", zeros⟩
    constraintsDigest := zeros
    inputSource := .standalone ⟨"input", 1, "input"⟩ }
  coverage := .complete
  effects := [{
    prepared := onePrepared path
    scope := ⟨⟨"session", "turn", "execution"⟩, "step", some zeros⟩
    result := result
    status := status
    sources := ⟨⟨"admission", 1⟩, ⟨"prepared", 2⟩, ⟨"authorized", 3⟩, ⟨"started", 4⟩, ⟨"receipt", 5⟩, ⟨"terminal", 6⟩⟩ }]
  through := 6
  inScope := by simp
  receipts := by simp

/-- The result of the write of `a`. -/
def oneResult : ToolResult := ⟨"w", "receipt", false⟩

theorem one_prepare : ∀ path, path = "a" ∨ path = "./a" →
    oneTools.prepare oneCodec.sha256 oneFile (writeCall "w" path) = .ok (onePrepared path) := by
  rintro path (rfl | rfl) <;> decide +kernel

theorem one_predicate : oneChecker.predicate oneCodec oneCriterion = .ok onePredicate := by decide +kernel

/-- A write of `a` satisfies the goal that `/r/a` is empty. -/
theorem assess_judges_plain : ∃ decision,
    Judges oneCodec oneChecker oneCriterion onePredicate (oneSource "a" (.ok oneResult) .completed) decision := by
  refine (assess_judges one_predicate rfl ?_).2 ?_
  · intro effect hmem hrelated
    obtain rfl := List.mem_singleton.1 hmem
    refine ⟨oneTools, oneFile, rfl, rfl, one_prepare "a" (.inl rfl), fun result hresult => ?_⟩
    obtain rfl := Except.ok.inj hresult
    refine ⟨rfl, rfl, .write "a" "", "receipt", ⟨"a", 0, zeros, none⟩, ?_, ?_, ?_⟩ <;> decide +kernel
  · intro effect hmem hrelated path content hoperation
    obtain rfl := List.mem_singleton.1 hmem
    have hsame : oneCodec.operation (onePrepared "a").call = .ok (.write "a" "") := by decide +kernel
    obtain ⟨rfl, rfl⟩ : "a" = path ∧ "" = content := by simpa using hsame.symm.trans hoperation
    rw [Dotted]
    decide

/-- **A write of `./a` that the tools have prepared, and that has failed, leaves the goal
without an answer.** -/
theorem assess_judges_dotted : (∀ effect ∈ (oneSource "./a" (.error .timedOut) .failed).effects,
      MadeBy oneCodec onePredicate.toolRevision effect) ∧
    oneChecker.predicate oneCodec oneCriterion = .ok onePredicate ∧
    oneChecker.assess oneCodec oneCriterion (oneSource "./a" (.error .timedOut) .failed) =
      .error (bad "historical write model path is not workspace-relative") := by
  refine ⟨fun effect hmem => ?_, one_predicate, by decide +kernel⟩
  obtain rfl := List.mem_singleton.1 hmem
  exact ⟨oneTools, oneFile, rfl, rfl, one_prepare "./a" (.inr rfl), fun result hresult => nomatch hresult⟩

end Verdicts

end Goals
end Kolyan
