import Mathlib.Logic.Relation
import RustdResolved.Lib.Walk
import RustdResolved.Wire.AnswerTables

/-! # The walk along the redirects of an answer

`classifyRedirectAnswer` is a walk: it stops at a name that has a record of the asked type, looks
for a CNAME record at a name and for DNAME records above it, and gives up after 16 redirects. -/

namespace RustdResolved.Wire.RedirectWalk

open Lib Result Loop Walk Octets Name PacketHeader Record Dname Redirects AnswerTables

variable {i rrType : Nat} {name target : DnsName} {answers : RedirectAnswerSet} {owner : Bytes}
  {question : Question}

/-- What `classifyRedirectChain` does at a name. -/
def redirectDecision (answers : RedirectAnswerSet) (redirects : Nat) (current : DnsName) :
    Except WireError (RedirectAnswer ⊕ DnsName) :=
  if current.canonicalWire ∈ answers.direct then .ok (.inl (.direct current.text redirects))
  else do
    match ← follow answers.aliases answers.dnames current with
    | none => .ok (.inl (if redirects = 0 then .noData else .redirect current.text redirects))
    | some target => if redirects ≥ cnameRedirectsMax then .error .cnameLoop else .ok (.inr target)

theorem redirectDecision_eq_next :
    redirectDecision answers i name = .ok (.inr target) ↔
      name.canonicalWire ∉ answers.direct ∧
        follow answers.aliases answers.dnames name = .ok (some target) ∧ i < cnameRedirectsMax := by
  unfold redirectDecision
  by_cases hdirect : name.canonicalWire ∈ answers.direct
  · simp [hdirect]
  · rw [if_neg hdirect]
    cases follow answers.aliases answers.dnames name with
    | error e => simp
    | ok followed =>
      cases followed with
      | none => simp
      | some found =>
        by_cases hlimit : i ≥ cnameRedirectsMax
        · simp [hlimit, not_lt.mpr hlimit]
        · simp [hlimit, hdirect, not_le.mp hlimit]

/-- The counter of redirects is the number of names before. -/
theorem loop_classifyRedirectBody (answers : RedirectAnswerSet) (fuel : Nat) (current : DnsName)
    (visited : List Bytes) :
    loop .outOfFuel (classifyRedirectBody answers) fuel ⟨current, visited, visited.length⟩ =
      loop .outOfFuel (walkBody .cnameLoop DnsName.canonicalWire (redirectDecision answers)) fuel
        (current, visited) := by
  induction fuel generalizing current visited with
  | zero => exact rfl
  | succ fuel ih =>
    have hnext := fun target => ih target (current.canonicalWire :: visited)
    simp only [loop, classifyRedirectBody, walkBody, redirectDecision]
    by_cases hvisited : current.canonicalWire ∈ visited
    · simp only [if_pos hvisited]
      rfl
    by_cases hdirect : current.canonicalWire ∈ answers.direct
    · simp only [if_neg hvisited, if_pos hdirect, ok_bind]
    simp only [if_neg hvisited, if_neg hdirect]
    cases follow answers.aliases answers.dnames current with
    | error e => rfl
    | ok target =>
      simp only [ok_bind]
      cases target with
      | none =>
        by_cases hzero : visited.length = 0
        · simp only [if_pos hzero, ok_bind]
        · simp only [if_neg hzero, ok_bind]
      | some target =>
        by_cases hlimit : visited.length ≥ cnameRedirectsMax
        · simp only [if_pos hlimit]
          rfl
        · simp only [if_neg hlimit, ok_bind]
          exact hnext target

variable {packet : Bytes} {answers : List ResourceRecord} {tables : RedirectTables}

theorem mem_direct {rrClass : Nat} :
    owner ∈ (redirectSet rrClass rrType answers tables).direct ↔
      Owns rrClass answers rrType owner := by
  rw [redirectSet, mem_foldl_addDirect]
  simp

section
variable {header : Header} {question : Question} (hheader : Header.parse packet = .ok header)
  (hresponse : header.isResponse = true)
  (hquestion : parseQuestion packet dnsHeaderLen = .ok question)
include hheader hresponse hquestion

theorem classifyRedirectAnswer_eq_ok (hcode : header.responseCode = 0) {result : RedirectAnswer} :
    classifyRedirectAnswer packet = .ok result ↔
      header.questionCount = 1 ∧ ∃ output,
        redirectAnswers packet question header.answerCount = .ok output ∧
          classifyRedirectChain question.name output = .ok result := by
  unfold classifyRedirectAnswer redirectAnswers
  rw [hheader, ok_bind, hresponse]
  by_cases hcount : header.questionCount = 1
  · simp only [Bool.not_true, Bool.false_eq_true, if_false, hcount, ne_eq, not_true_eq_false,
      hcode, hquestion, ok_bind, true_and]
    cases foldRecords packet (addRedirectAnswer packet question) header.answerCount
      question.nextOffset ⟨[], ∅, ∅⟩ with
    | error e => simp
    | ok answers =>
      simp only [ok_bind]
      split_ifs
      · simp
      · simp
  · simp [hcount]

end

end RustdResolved.Wire.RedirectWalk
