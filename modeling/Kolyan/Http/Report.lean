/-
# The report of an opening

`kolyan-protocol-http/src/report.rs`: one observation for each send, in order, with
its texts cut to a bounded prefix, and why the opening ended.
-/

import Kolyan.Http.Policy

namespace Kolyan
namespace Http

/-- `MAX_OBSERVATIONS`. -/
def maxObservations : ℕ := 64

/-- The characters of a text that fit into the bytes left. -/
def fitting : ℕ → List Char → List Char
  | _, [] => []
  | left, c :: cs => if c.utf8Size ≤ left then c :: fitting (left - c.utf8Size) cs else []

/-- `bounded`: the longest prefix within the limit, and whether the text was cut. -/
def bounded (text : String) (limit : ℕ) : String × Bool :=
  if text.utf8ByteSize ≤ limit then (text, false) else (.ofList (fitting limit text.toList), true)

/-- `RetryObservation`. -/
structure RetryObservation where
  attempt : ℕ
  status : Option ℕ
  errorCode : Option String
  requestId : Option String
  fieldsTruncated : Bool
  decision : Option RetryDecision

/-- `RetryObservation::new`. -/
def RetryObservation.new (attempt : ℕ) (status : Option ℕ) (errorCode requestId : Option String)
    (decision : Option RetryDecision) : RetryObservation where
  attempt := attempt
  status := status
  errorCode := errorCode.map fun text => (bounded text 128).1
  requestId := requestId.map fun text => (bounded text 256).1
  fieldsTruncated :=
    errorCode.any (fun text => (bounded text 128).2) || requestId.any fun text => (bounded text 256).2
  decision := decision

/-- `RetryReport`. -/
structure RetryReport where
  observations : List RetryObservation
  terminalStop : Option StopReason

/-- `RetryReport::default`. -/
def RetryReport.default : RetryReport := ⟨[], none⟩

/-- `RetryReport::push`; none is a `ReportError`. -/
def RetryReport.push (report : RetryReport) (observation : RetryObservation) : Option RetryReport :=
  if report.observations.length ≥ maxObservations ∨
      observation.attempt ≠ report.observations.length + 1 ∨
      observation.errorCode.any (fun text => text.utf8ByteSize > 128) ∨
      observation.requestId.any (fun text => text.utf8ByteSize > 256) then none
  else some { report with observations := report.observations ++ [observation] }

/-- `RetryReport::finish`. -/
def RetryReport.finish (report : RetryReport) (reason : StopReason) : RetryReport :=
  { report with terminalStop := some reason }

/-- The texts of an observation are within their bounds. -/
structure RetryObservation.Bounded (observation : RetryObservation) : Prop where
  errorCode : ∀ text ∈ observation.errorCode, text.utf8ByteSize ≤ 128
  requestId : ∀ text ∈ observation.requestId, text.utf8ByteSize ≤ 256

theorem size_fitting (left : ℕ) (cs : List Char) :
    (String.ofList (fitting left cs)).utf8ByteSize ≤ left := by
  rw [String.utf8ByteSize_ofList]
  induction cs generalizing left with
  | nil => simp [fitting]
  | cons c cs ih =>
    rw [fitting]
    split_ifs with hc
    · have := ih (left - c.utf8Size)
      rw [String.utf8Len_cons]
      omega
    · simp

theorem size_bounded (text : String) (limit : ℕ) : (bounded text limit).1.utf8ByteSize ≤ limit := by
  unfold bounded
  split_ifs with h
  · exact h
  · exact size_fitting limit text.toList

/-- **A new observation is bounded**, whatever texts it is made of. -/
theorem RetryObservation.bounded_new (attempt : ℕ) (status : Option ℕ)
    (errorCode requestId : Option String) (decision : Option RetryDecision) :
    (RetryObservation.new attempt status errorCode requestId decision).Bounded where
  errorCode text h := by
    obtain ⟨_, _, rfl⟩ := Option.map_eq_some_iff.1 h
    exact size_bounded _ _
  requestId text h := by
    obtain ⟨_, _, rfl⟩ := Option.map_eq_some_iff.1 h
    exact size_bounded _ _

theorem RetryReport.push_new {report : RetryReport} {attempt : ℕ} {status : Option ℕ}
    {errorCode requestId : Option String} {decision : Option RetryDecision}
    (hroom : report.observations.length < maxObservations)
    (hattempt : attempt = report.observations.length + 1) :
    report.push (.new attempt status errorCode requestId decision) =
      some { report with observations :=
        report.observations ++ [.new attempt status errorCode requestId decision] } := by
  have hbounded := RetryObservation.bounded_new attempt status errorCode requestId decision
  rw [push, if_neg]
  simp only [not_or, Option.any_eq_true, decide_eq_true_eq, not_exists, not_and, not_lt]
  exact ⟨by omega, by simpa [RetryObservation.new] using hattempt, hbounded.errorCode, hbounded.requestId⟩

end Http
end Kolyan
