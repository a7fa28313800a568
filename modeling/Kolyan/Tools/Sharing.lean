/-
# What calls share and what they claim

A scheduler that runs calls in parallel compares what they claim
(`claims_conflict`), so a claim has to cover what its call will touch.

The isolated adapters claim physical paths: a file call the one that its binding
holds, a shell call its whole workspace.  Two that touch one file, or one of which
may touch a directory that the other's file is in, conflict as soon as one of them
acts.  The restricted tools claim the text they are given; their claims cover what
they share when the two texts are one, or each is the physical path, below the root,
of what is touched (`sharing_conflicts`).  A write whose text is its physical path
meets no other call whose text is not (`spelled_of_conflict`), so two names of one
file look disjoint; and a query of the restricted shell claims to read, like a read.
-/

import Kolyan.Policy.Stages
import Kolyan.Tools.Adapters

namespace Kolyan
namespace Tools

open Paths Checks Policy

section Uses

/-- How a call uses what it touches. -/
inductive Access where
  | read | write | edit | shell | query
  deriving DecidableEq

/-- A write, an edit or a call of the isolated shell. -/
def Access.acts : Access → Bool
  | write | edit | shell => true
  | read | query => false

/-- The access of a file operation. -/
def FileOperation.access : FileOperation → Access
  | read _ => .read
  | write .. => .write
  | edit .. => .edit

/-- What a prepared call touches, as a physical path (below the root, of a restricted
tool), how it uses that, and the text of a restricted tool. -/
structure Use where
  touched : List Name
  access : Access
  label : Option (List Char)

/-- A text spelled as what it names. -/
def Use.Spelled (use : Use) : Prop := ∀ label, use.label = some label → label = text use.touched ∧ use.touched ≠ []

/-- One is on the way to the other: the same file, or a directory that contains it. -/
def Use.Meets (l r : Use) : Prop := l.touched <+: r.touched ∨ r.touched <+: l.touched

variable (s : Snapshot) (root : Workspace)

/-- The directory that a restricted tool has opened. -/
def Workspace.node : Option Node := do
  let path ← root.directory.toOption
  match s.tree.at path with
  | some (.dir entries) => some (.dir entries)
  | _ => none

/-- Where the system leads a path that stays beneath an open directory. -/
def beneath (node : Node) (create : Bool) (path : List Char) : Option (List Name) :=
  if path = [] then none else walk node true create s.links [] (pieces path)

/-- `Dir::read_to_string`: the file that is read. -/
def readToString (node : Node) (path : List Char) : Option (List Name) :=
  (beneath s node false path).filter fun touched => match node.at touched with
    | some .file => true
    | _ => false

/-- `Dir::read_dir`: the directory that is listed. -/
def readDir (node : Node) (path : List Char) : Option (List Name) :=
  (beneath s node false path).filter fun touched => match node.at touched with
    | some (.dir _) => true
    | _ => false

/-- `Dir::write`: the file that is written, or created. -/
def writeFile (node : Node) (path : List Char) : Option (List Name) :=
  (beneath s node true path).filter fun touched => match node.at touched with
    | some (.dir _) => false
    | _ => true

/-- The label of a call, as `prepare_restricted` reads it. -/
def label (call : ToolCall) : List Char :=
  (((asObject call.arguments).bind (textField · "path")).getD ".").toList

/-- What `RestrictedFileTool::run_file` touches. -/
def RestrictedFileTool.touches (call : ToolCall) : Option (List Name) := do
  let object ← asObject call.arguments
  let path ← textField object "path"
  let relative ← (Workspace.relative path.toList).toOption
  let node ← root.node s
  if call.name = "file.read" then readToString s node relative
  else if call.name = "file.write" ∧ (textField object "content").isSome then writeFile s node relative
  else none

/-- What `RestrictedShellTool::run_query` touches. -/
def RestrictedShellTool.touches (call : ToolCall) : Option (List Name) := do
  let object ← asObject call.arguments
  let command ← textField object "command"
  let relative ← (Workspace.relative ((textField object "path").getD ".").toList).toOption
  let node ← root.node s
  if command = "list" ∨ command = "count_entries" then readDir s node relative
  else if command = "count_lines" then readToString s node relative
  else none

end Uses

/-- Adapters that share what their calls touch: the isolated ones of a workspace, or
the restricted ones of a root. -/
inductive Family where
  | isolated (workspace : List Name)
  | restricted (root : Workspace)

variable (sha256 : Value → String) (s : Snapshot)

/-- A call prepared over the snapshot by an adapter of a family, and its use. -/
inductive Prepared : Family → PreparedCall → Use → Prop
  /-- A file call touches what the binding holds that its worker opens. -/
  | file {tools : IsolatedFileTools} {call : ToolCall} {prepared : PreparedCall} {operation : FileOperation}
      {resource : List Name} {binding : ExactFileBinding} (hprepare : tools.prepare sha256 s call = .ok prepared)
      (hoperation : tools.operation call = .ok operation) (hresource : tools.resource s operation = .ok resource)
      (hbinding : ExactFileBinding.prepare s tools.config.workspace resource tools.config.protectedRoots = .ok binding) :
      Prepared (.isolated tools.config.workspace) prepared ⟨binding.target, operation.access, none⟩
  /-- A shell call may touch its whole workspace. -/
  | shell {tool : IsolatedShellTool} {call : ToolCall} {prepared : PreparedCall}
      (hprepare : tool.prepare sha256 s call = .ok prepared) :
      Prepared (.isolated tool.config.workspace) prepared ⟨tool.config.workspace, .shell, none⟩
  | restrictedFile {root : Workspace} {call : ToolCall} {prepared : PreparedCall} {touched : List Name}
      (hprepare : RestrictedFileTool.prepare sha256 root call = .ok prepared)
      (htouches : RestrictedFileTool.touches s root call = some touched) :
      Prepared (.restricted root) prepared
        ⟨touched, if call.name = "file.write" then .write else .read, some (label call)⟩
  | restrictedShell {root : Workspace} {call : ToolCall} {prepared : PreparedCall} {touched : List Name}
      (hprepare : RestrictedShellTool.prepare sha256 root call = .ok prepared)
      (htouches : RestrictedShellTool.touches s root call = some touched) :
      Prepared (.restricted root) prepared ⟨touched, .query, some (label call)⟩

variable {sha256 s}

section Claims

theorem startsWith_ofList {a b : List Char} : startsWith (String.ofList a) (String.ofList b ++ "/") = true ↔
    b ++ ['/'] <+: a := by
  simp only [startsWith, List.isPrefixOf_iff_prefix, String.toList_append, String.toList_ofList]
  exact Iff.rfl

theorem claimsConflict_iff {left right : InvocationClaim} {a b : List Char}
    (ha : left.resource.path = some (String.ofList a)) (hb : right.resource.path = some (String.ofList b)) :
    claimsConflict left right = true ↔ (left.writes = true ∨ right.writes = true) ∧ TextMeets a b := by
  rw [claimsConflict, ha, hb]
  simp only [Bool.and_eq_true, Bool.or_eq_true, decide_eq_true_eq, startsWith_ofList, TextMeets]
  refine and_congr Iff.rfl ?_
  rw [or_assoc, String.ofList_inj]
  exact or_congr Iff.rfl or_comm

theorem new_claim {call : ToolCall} {revision : String} {claim : InvocationClaim} {requirements : ToolRequirements}
    {prepared : PreparedCall} (h : PreparedCall.new sha256 call revision claim requirements = .ok prepared) :
    prepared.claim = claim := by
  simp only [PreparedCall.new, bind_eq_ok, pure_eq_ok] at h
  obtain ⟨_, -, _, -, rfl⟩ := h
  rfl

theorem withExecutionBinding_claim {call prepared : PreparedCall} {binding : Value}
    (h : call.withExecutionBinding sha256 binding = .ok prepared) : prepared.claim = call.claim := by
  simp only [PreparedCall.withExecutionBinding, bind_eq_ok, pure_eq_ok] at h
  obtain ⟨_, -, _, -, _, -, rfl⟩ := h
  rfl

theorem binding_target {workspace resource : List Name} {protectedRoots : List (List Name)} {binding : ExactFileBinding}
    (h : ExactFileBinding.prepare s workspace resource protectedRoots = .ok binding) : binding.target = resource := by
  simp only [ExactFileBinding.prepare, ExactDirectoryBinding.capture, bind_eq_ok, expect_eq_ok, pure_eq_ok] at h
  obtain ⟨_, -, _, -, last, hlast, root, -, parent, ⟨_, -, rfl⟩, _, -, _, -, _, -, rfl⟩ := h
  exact List.dropLast_append_getLast? last hlast

/-- **An isolated file call claims what it touches**, to write unless it reads. -/
theorem isolatedFile_claim {tools : IsolatedFileTools} {call : ToolCall} {prepared : PreparedCall}
    {operation : FileOperation} {resource : List Name} {binding : ExactFileBinding}
    (hprepare : tools.prepare sha256 s call = .ok prepared) (hoperation : tools.operation call = .ok operation)
    (hresource : tools.resource s operation = .ok resource)
    (hbinding : ExactFileBinding.prepare s tools.config.workspace resource tools.config.protectedRoots = .ok binding) :
    prepared.claim.writes = operation.access.acts ∧
      prepared.claim.resource.path = some (physicalText binding.target) := by
  simp only [IsolatedFileTools.prepare, hoperation, hresource, ok_bind, bind_eq_ok, mapError_eq_ok] at hprepare
  obtain ⟨_, -, _, -, draft, hdraft, hbound⟩ := hprepare
  rw [withExecutionBinding_claim hbound, new_claim hdraft, binding_target hbinding]
  exact ⟨by cases operation <;> rfl, rfl⟩

theorem isolatedShell_claim {tool : IsolatedShellTool} {call : ToolCall} {prepared : PreparedCall}
    (hprepare : tool.prepare sha256 s call = .ok prepared) :
    prepared.claim.writes = true ∧ prepared.claim.resource.path = some (physicalText tool.config.workspace) := by
  simp only [IsolatedShellTool.prepare, IsolatedShellTool.prepareWithContext, bind_eq_ok, mapError_eq_ok, pure_eq_ok]
    at hprepare
  obtain ⟨_, ⟨_, -, _, -, draft, hdraft, rfl⟩, rfl⟩ := hprepare
  rw [new_claim hdraft]
  exact ⟨rfl, rfl⟩

/-- **A restricted call claims its label**, joined to the root as it stands. -/
theorem restricted_claim {root : Workspace} {call : ToolCall} {manifest : ToolManifest} {prepared : PreparedCall}
    (hprepare : prepareRestricted sha256 root call manifest = .ok prepared) :
    call.name = manifest.toolName ∧ prepared.claim.effects = manifest.effects ∧
      prepared.claim.resource.path = some (String.ofList (join root.path (label call))) := by
  simp only [prepareRestricted, Workspace.relative, bind_eq_ok, reject_eq_ok, expect_eq_ok, mapError_eq_ok, pure_eq_ok,
    not_not] at hprepare
  obtain ⟨_, hname, object, hobject, _, ⟨_, -, rfl⟩, _, -, hnew⟩ := hprepare
  rw [new_claim hnew, label, hobject]
  exact ⟨hname, rfl, rfl⟩

theorem restrictedFile_claim {root : Workspace} {call : ToolCall} {prepared : PreparedCall}
    (hprepare : RestrictedFileTool.prepare sha256 root call = .ok prepared) :
    prepared.claim.writes = (if call.name = "file.write" then Access.write else .read).acts ∧
      prepared.claim.resource.path = some (String.ofList (join root.path (label call))) := by
  simp only [RestrictedFileTool.prepare, bind_eq_ok, expect_eq_ok] at hprepare
  obtain ⟨manifest, hfind, hprepare⟩ := hprepare
  obtain ⟨hname, heffects, hpath⟩ := restricted_claim hprepare
  refine ⟨?_, hpath⟩
  have hmem := List.mem_of_find?_eq_some hfind
  rw [InvocationClaim.writes, heffects, hname]
  rw [fileManifests, List.mem_cons, List.mem_singleton] at hmem
  rcases hmem with rfl | rfl <;> rfl

theorem restrictedShell_claim {root : Workspace} {call : ToolCall} {prepared : PreparedCall}
    (hprepare : RestrictedShellTool.prepare sha256 root call = .ok prepared) :
    prepared.claim.writes = false ∧
      prepared.claim.resource.path = some (String.ofList (join root.path (label call))) := by
  obtain ⟨-, heffects, hpath⟩ := restricted_claim hprepare
  exact ⟨by rw [InvocationClaim.writes, heffects]; rfl, hpath⟩

theorem Prepared.writes {family : Family} {prepared : PreparedCall} {use : Use} (h : Prepared sha256 s family prepared use) :
    prepared.claim.writes = use.access.acts := by
  cases h with
  | file hprepare hoperation hresource hbinding => exact (isolatedFile_claim hprepare hoperation hresource hbinding).1
  | shell hprepare => exact (isolatedShell_claim hprepare).1
  | restrictedFile hprepare htouches => exact (restrictedFile_claim hprepare).1
  | restrictedShell hprepare htouches => exact (restrictedShell_claim hprepare).1

theorem Prepared.physical {workspace : List Name} {prepared : PreparedCall} {use : Use}
    (h : Prepared sha256 s (.isolated workspace) prepared use) :
    prepared.claim.resource.path = some (physicalText use.touched) ∧ use.label = none := by
  cases h with
  | file hprepare hoperation hresource hbinding => exact ⟨(isolatedFile_claim hprepare hoperation hresource hbinding).2, rfl⟩
  | shell hprepare => exact ⟨(isolatedShell_claim hprepare).2, rfl⟩

theorem Prepared.labelled {root : Workspace} {prepared : PreparedCall} {use : Use}
    (h : Prepared sha256 s (.restricted root) prepared use) : ∃ label, use.label = some label ∧
      prepared.claim.resource.path = some (String.ofList (join root.path label)) := by
  cases h with
  | restrictedFile hprepare htouches => exact ⟨_, rfl, (restrictedFile_claim hprepare).2⟩
  | restrictedShell hprepare htouches => exact ⟨_, rfl, (restrictedShell_claim hprepare).2⟩

theorem textMeets_join {base a b : List Char} : TextMeets (join base a) (join base b) ↔ TextMeets a b := by
  unfold join
  split_ifs
  · exact textMeets_append_left base
  · have hslash : ∀ c : List Char, base ++ '/' :: c = (base ++ ['/']) ++ c := by simp
    rw [hslash a, hslash b]
    exact textMeets_append_left _

end Claims

section Conflicts

variable {family : Family} {left right : PreparedCall} {l r : Use}

theorem Use.Meets.text (h : l.Meets r) (hl : l.touched ≠ []) (hr : r.touched ≠ []) :
    TextMeets (text l.touched) (text r.touched) := by
  rcases h with h | h
  · exact textMeets_of_starts hl h
  · exact (textMeets_of_starts hr h).symm

theorem Prepared.inside {workspace : List Name} {prepared : PreparedCall} {use : Use}
    (h : Prepared sha256 s (.isolated workspace) prepared use) :
    use.touched = workspace ∨ workspace ≠ [] ∧ workspace <+: use.touched := by
  cases h with
  | shell hprepare => exact .inl rfl
  | @file tools call _ operation resource binding hprepare hoperation hresource hbinding =>
    refine .inr ⟨?_, ?_⟩
    · simp only [ExactFileBinding.prepare, ExactDirectoryBinding.capture, ExactFileBinding.validate, bind_eq_ok,
        reject_eq_ok, pure_eq_ok, not_or] at hbinding
      obtain ⟨_, -, _, -, last, -, root, ⟨_, -, rfl⟩, parent, ⟨_, -, rfl⟩, _, -, _, hvalid, -⟩ := hbinding
      obtain ⟨_, -, _, -, _, -, _, hworkspace, -⟩ := hvalid
      exact hworkspace.1
    · simp only [IsolatedFileTools.resource, bind_eq_ok, reject_eq_ok, pure_eq_ok, not_not] at hresource
      obtain ⟨_, -, _, -, _, hstays, rfl⟩ := hresource
      rwa [binding_target hbinding]

theorem Prepared.meets {workspace : List Name} (hleft : Prepared sha256 s (.isolated workspace) left l)
    (hright : Prepared sha256 s (.isolated workspace) right r) (hmeets : l.Meets r) :
    TextMeets (text l.touched) (text r.touched) := by
  rcases eq_or_ne workspace [] with hroot | hne
  · -- Over the root there are only calls of the shell.
    have hl := hleft.inside.resolve_right fun h => h.1 hroot
    have hr := hright.inside.resolve_right fun h => h.1 hroot
    exact .inl (by rw [hl, hr])
  · have hbelow : ∀ {touched : List Name}, touched = workspace ∨ workspace ≠ [] ∧ workspace <+: touched →
        touched ≠ [] := by
      rintro touched (rfl | ⟨-, hprefix⟩) hnil
      · exact hne hnil
      · exact hne (List.prefix_nil.1 (hnil ▸ hprefix))
    exact hmeets.text (hbelow hleft.inside) (hbelow hright.inside)

/-- **Claims cover real sharing.**  Two calls that the adapters of one family have
prepared over a snapshot, that touch the same file, or of which one may touch a
directory that contains the other's, and of which one writes, edits or is a call of
the isolated shell: their claims conflict, and no plan puts both into one stage.  Of
the restricted tools, whose claims are texts joined to the root, the two texts are
one, or each spells what its call touches. -/
theorem sharing_conflicts (hleft : Prepared sha256 s family left l) (hright : Prepared sha256 s family right r)
    (hmeets : l.Meets r) (hacts : l.access.acts = true ∨ r.access.acts = true)
    (hspelled : l.label = r.label ∨ l.Spelled ∧ r.Spelled) :
    claimsConflict left.claim right.claim = true ∧
      ∀ (engine : PolicyEngine) (context : PolicyContext) (calls : List PreparedCall) (plan : BatchExecutionPlan),
        engine.resolvePreparedBatch sha256 context calls = .ok plan → left ∈ calls → right ∈ calls → left ≠ right →
        ∀ approved, ∀ stage ∈ plan.stagesWithApprovals approved, ¬(left.call.id ∈ stage ∧ right.call.id ∈ stage) := by
  have hconflict : claimsConflict left.claim right.claim = true := by
    have hwrites : left.claim.writes = true ∨ right.claim.writes = true := by rwa [hleft.writes, hright.writes]
    cases family with
    | isolated workspace =>
      refine (claimsConflict_iff hleft.physical.1 hright.physical.1).2 ⟨hwrites, ?_⟩
      exact (textMeets_append_left ['/']).2 (hleft.meets hright hmeets)
    | restricted root =>
      obtain ⟨p, hp, hclaim⟩ := hleft.labelled
      obtain ⟨q, hq, hclaim'⟩ := hright.labelled
      refine (claimsConflict_iff hclaim hclaim').2 ⟨hwrites, textMeets_join.2 ?_⟩
      rcases hspelled with hsame | ⟨hl, hr⟩
      · rw [hp, hq, Option.some.injEq] at hsame
        exact .inl hsame
      · obtain ⟨rfl, hnot⟩ := hl p hp
        obtain ⟨rfl, hnot'⟩ := hr q hq
        exact hmeets.text hnot hnot'
  exact ⟨hconflict, fun engine context calls plan hplan hl hr hne approved stage hstage =>
    plan_apart hplan hl hr hne hconflict approved hstage⟩

end Conflicts

section Spellings

def oneFile : Snapshot where
  tree := .dir [("r".toList, .dir [("a".toList, .file)])]
  identity _ := ⟨0, 0⟩
  links := 40

def oneRoot : Workspace where
  path := "/r".toList
  directory := .ok ["r".toList]

def queryCall (id command path : String) : ToolCall where
  id := id
  name := "shell.query"
  arguments := .object [("command", .string command), ("path", .string path)]

def writeCall (id path : String) : ToolCall where
  id := id
  name := "file.write"
  arguments := .object [("content", .string ""), ("path", .string path)]

def restrictedCall (manifest : ToolManifest) (call : ToolCall) (resource : String) : PreparedCall where
  call := call
  toolRevision := "restricted-v2//r"
  claim := {
    toolName := manifest.toolName
    capabilities := manifest.capabilities
    effects := manifest.effects
    resource := { path := some resource }
    idempotency := manifest.idempotency }
  requirements := { processSandbox := false, maxOutputBytes := 1024 * 1024, timeoutMs := 30000 }
  executionBinding := .null
  digest := "digest"

def allowed (call : PreparedCall) : BatchCallDecision where
  callId := call.call.id
  claim := call.claim
  decision := { kind := .allow, reason := "", policyVersion := "", constraints := ⟨none, none⟩ }

/-- Isolated tools over that root, whose model calls are reads and empty writes. -/
def oneTools : IsolatedFileTools where
  config := {
    workspace := ["r".toList]
    protectedRoots := []
    fileLimits := ⟨1024, 1024⟩
    maxOutputBytes := 1024
    timeoutMs := 1000 }
  decode call := match call.arguments with
    | .object [("path", .string path)] => .ok (.read path)
    | .object [("content", .string content), ("path", .string path)] => .ok (.write path content)
    | _ => .error "data did not match"
  adapterRevision := .ok "file-worker"

def readCall (id path : String) : ToolCall where
  id := id
  name := "file.read"
  arguments := .object [("path", .string path)]

/-- A read of `a` and a write of `.//a` conflict. -/
theorem sharing_conflicts_isolated : ∃ left right : PreparedCall,
    oneTools.prepare (fun _ => "digest") oneFile (readCall "left" "a") = .ok left ∧
      oneTools.prepare (fun _ => "digest") oneFile (writeCall "right" ".//a") = .ok right ∧
      claimsConflict left.claim right.claim = true := by
  have hok : ∀ {x : Except IsolatedFileError PreparedCall}, x.toBool = true → ∃ prepared, x = .ok prepared := by
    intro x h
    cases x with
    | error e => exact Bool.noConfusion h
    | ok prepared => exact ⟨prepared, rfl⟩
  have hbound : ∀ operation, operation = .read "a" ∨ operation = .write ".//a" "" →
      oneTools.resource oneFile operation = .ok ["r".toList, "a".toList] := by
    rintro operation (rfl | rfl) <;> decide +kernel
  have hbinding : ExactFileBinding.prepare oneFile oneTools.config.workspace ["r".toList, "a".toList]
      oneTools.config.protectedRoots = .ok {
        workspace := ⟨["r".toList], [⟨0, 0⟩, ⟨0, 0⟩]⟩
        parent := ⟨["r".toList], [⟨0, 0⟩, ⟨0, 0⟩]⟩
        leaf := "a".toList
        targetIdentity := some ⟨0, 0⟩
        protectedRoots := [] } := by decide +kernel
  obtain ⟨left, hleft⟩ := hok (show (oneTools.prepare (fun _ => "digest") oneFile (readCall "left" "a")).toBool = true by
    decide +kernel)
  obtain ⟨right, hright⟩ := hok (show (oneTools.prepare (fun _ => "digest") oneFile
    (writeCall "right" ".//a")).toBool = true by decide +kernel)
  have hread : oneTools.operation (readCall "left" "a") = .ok (.read "a") := by decide +kernel
  have hwrite : oneTools.operation (writeCall "right" ".//a") = .ok (.write ".//a" "") := by decide +kernel
  exact ⟨left, right, hleft, hright,
    (sharing_conflicts (.file hleft hread (hbound _ (.inl rfl)) hbinding)
      (.file hright hwrite (hbound _ (.inr rfl)) hbinding) (.inl (List.prefix_refl _)) (.inr rfl) (.inl rfl)).1⟩

/-- **Two calls that share a file, one of them of a shell, in one stage.**  Two
queries of the restricted shell count the lines of one file: both claim to read.  A
query lists the root, as `.`, into which a write puts a file: the claims are of `/r/.`
and of `/r/x`. -/
theorem sharing_apart :
    (∃ left right : PreparedCall, ∃ l r : Use,
      Prepared (fun _ => "digest") oneFile (.restricted oneRoot) left l ∧
      Prepared (fun _ => "digest") oneFile (.restricted oneRoot) right r ∧
      l.Meets r ∧ l.access = .query ∧ r.access = .query ∧
      claimsConflict left.claim right.claim = false ∧
      executionStages [allowed left, allowed right] [] = [["left", "right"]]) ∧
    ∃ left right : PreparedCall, ∃ l r : Use,
      Prepared (fun _ => "digest") oneFile (.restricted oneRoot) left l ∧
      Prepared (fun _ => "digest") oneFile (.restricted oneRoot) right r ∧
      l.Meets r ∧ l.access = .query ∧ r.access = .write ∧
      claimsConflict left.claim right.claim = false ∧
      executionStages [allowed left, allowed right] [] = [["left", "right"]] := by
  have hcount : ∀ id : String, id = "left" ∨ id = "right" →
      RestrictedShellTool.prepare (fun _ => "digest") oneRoot (queryCall id "count_lines" "a") =
        .ok (restrictedCall shellManifest (queryCall id "count_lines" "a") "/r/a") ∧
      RestrictedShellTool.touches oneFile oneRoot (queryCall id "count_lines" "a") = some ["a".toList] := by
    rintro id (rfl | rfl) <;> decide +kernel
  have hlist : RestrictedShellTool.prepare (fun _ => "digest") oneRoot (queryCall "left" "list" ".") =
        .ok (restrictedCall shellManifest (queryCall "left" "list" ".") "/r/.") ∧
      RestrictedShellTool.touches oneFile oneRoot (queryCall "left" "list" ".") = some [] := by decide +kernel
  have hwrite : RestrictedFileTool.prepare (fun _ => "digest") oneRoot (writeCall "right" "x") =
        .ok (restrictedCall writeManifest (writeCall "right" "x") "/r/x") ∧
      RestrictedFileTool.touches oneFile oneRoot (writeCall "right" "x") = some ["x".toList] := by decide +kernel
  obtain ⟨hleft, hfile⟩ := hcount "left" (.inl rfl)
  obtain ⟨hright, hfile'⟩ := hcount "right" (.inr rfl)
  refine ⟨⟨_, _, _, _, .restrictedShell hleft hfile, .restrictedShell hright hfile', .inl (List.prefix_refl _), rfl, rfl,
    by decide +kernel, by decide +kernel⟩, ?_⟩
  exact ⟨_, _, _, _, .restrictedShell hlist.1 hlist.2, .restrictedFile hwrite.1 hwrite.2, .inl List.nil_prefix, rfl,
    by decide +kernel, by decide +kernel, by decide +kernel⟩

end Spellings

end Tools
end Kolyan
