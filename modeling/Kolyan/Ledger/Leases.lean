/-
# Execution leases

`LeaseStore` of `SqliteLedger`: one row an execution, with the revision of its
lease as a fencing token.  The table's integers are signed, the source's are
not, and each is cast to the other.  A release deletes the row, so that the next
acquire starts again at revision 1; everything that a fencing token promises
(`Fenced`) holds of exactly the histories in which no acquire of an execution
follows a release of it, up to the end of the revisions (`fenced_iff`).
-/

import Kolyan.Ledger.Store
import Kolyan.Lib.Histories

namespace Kolyan
namespace Ledger

open Checks Machine

/-- `ExecutionLease`. -/
structure ExecutionLease where
  executionId : String
  ownerId : String
  revision : UInt64
  expiresAtMs : UInt64
  deriving DecidableEq

/-- A row of the table `leases`, without its key. -/
structure LeaseRow where
  ownerId : String
  revision : Int64
  expiresAtMs : Int64

/-- The table `leases`, by its primary key `execution_id`. -/
abbrev LeaseTable := String → Option LeaseRow

/-- `INSERT … ON CONFLICT(execution_id) DO UPDATE` of a lease. -/
def LeaseTable.upsert (leases : LeaseTable) (lease : ExecutionLease) : LeaseTable :=
  Function.update leases lease.executionId
    (some ⟨lease.ownerId, lease.revision.toInt64, lease.expiresAtMs.toInt64⟩)

/-- `SqliteLedger::acquire_lease`. -/
def acquireLease (leases : LeaseTable) (executionId ownerId : String) (nowMs ttlMs : UInt64) :
    Except LedgerError ExecutionLease × LeaseTable :=
  let granted (revision : UInt64) : ExecutionLease :=
    { executionId, ownerId, revision, expiresAtMs := nowMs + ttlMs }
  match leases executionId with
  | some current =>
    if current.expiresAtMs.toUInt64 > nowMs ∧ current.ownerId ≠ ownerId then
      (.error (.conflict ("lease owned by " ++ current.ownerId)), leases)
    else
      (.ok (granted (current.revision.toUInt64 + 1)), leases.upsert (granted (current.revision.toUInt64 + 1)))
  | none => (.ok (granted 1), leases.upsert (granted 1))

/-- The row that an update or a delete of a lease finds. -/
def LeaseTable.holds (leases : LeaseTable) (lease : ExecutionLease) (row : LeaseRow) : Prop :=
  leases lease.executionId = some row ∧ row.ownerId = lease.ownerId ∧ row.revision = lease.revision.toInt64

/-- `SqliteLedger::renew_lease`: the comparison of the table is signed. -/
def renewLease (leases : LeaseTable) (lease : ExecutionLease) (nowMs ttlMs : UInt64) :
    Except LedgerError ExecutionLease × LeaseTable :=
  match leases lease.executionId with
  | some row =>
    if row.ownerId = lease.ownerId ∧ row.revision = lease.revision.toInt64 ∧ row.expiresAtMs > nowMs.toInt64 then
      (.ok { lease with expiresAtMs := nowMs + ttlMs },
        Function.update leases lease.executionId (some { row with expiresAtMs := (nowMs + ttlMs).toInt64 }))
    else (.error (.conflict "lease fenced or expired"), leases)
  | none => (.error (.conflict "lease fenced or expired"), leases)

/-- `SqliteLedger::release_lease`. -/
def releaseLease (leases : LeaseTable) (lease : ExecutionLease) : Except LedgerError Unit × LeaseTable :=
  match leases lease.executionId with
  | some row =>
    if row.ownerId = lease.ownerId ∧ row.revision = lease.revision.toInt64 then
      (.ok (), Function.update leases lease.executionId none)
    else (.error (.conflict "lease fenced"), leases)
  | none => (.error (.conflict "lease fenced"), leases)

/-- The calls of `LeaseStore`. -/
inductive LeaseCall where
  | acquire (executionId ownerId : String) (nowMs ttlMs : UInt64)
  | renew (lease : ExecutionLease) (nowMs ttlMs : UInt64)
  | release (lease : ExecutionLease)

/-- What a call answers. -/
def LeaseCall.Answer : LeaseCall → Type
  | acquire .. | renew .. => Except LedgerError ExecutionLease
  | release _ => Except LedgerError Unit

/-- The time that a caller passes. -/
def LeaseCall.nowMs? : LeaseCall → Option UInt64
  | acquire _ _ nowMs _ | renew _ nowMs _ => some nowMs
  | release _ => none

/-- The leases of a ledger as a machine. -/
def leaseStore : Machine LeaseCall LeaseCall.Answer LeaseTable where
  step leases
    | .acquire executionId ownerId nowMs ttlMs => acquireLease leases executionId ownerId nowMs ttlMs
    | .renew lease nowMs ttlMs => renewLease leases lease nowMs ttlMs
    | .release lease => releaseLease leases lease

/-- A new table. -/
def noLeases : LeaseTable := fun _ => none

/-- A call with its answer. -/
abbrev Answered := (call : LeaseCall) × call.Answer

section Serving

/-- What a call may answer, and the table after it. -/
inductive Served (leases : LeaseTable) : (call : LeaseCall) → call.Answer → LeaseTable → Prop where
  | first (executionId ownerId : String) (nowMs ttlMs : UInt64) (hfree : leases executionId = none) :
      Served leases (.acquire executionId ownerId nowMs ttlMs) (.ok ⟨executionId, ownerId, 1, nowMs + ttlMs⟩)
        (leases.upsert ⟨executionId, ownerId, 1, nowMs + ttlMs⟩)
  | next (executionId ownerId : String) (nowMs ttlMs : UInt64) (row : LeaseRow) (hrow : leases executionId = some row)
      (hmay : row.expiresAtMs.toUInt64 ≤ nowMs ∨ row.ownerId = ownerId) :
      Served leases (.acquire executionId ownerId nowMs ttlMs)
        (.ok ⟨executionId, ownerId, row.revision.toUInt64 + 1, nowMs + ttlMs⟩)
        (leases.upsert ⟨executionId, ownerId, row.revision.toUInt64 + 1, nowMs + ttlMs⟩)
  | renewed (lease : ExecutionLease) (nowMs ttlMs : UInt64) (row : LeaseRow) (hrow : leases.holds lease row) :
      Served leases (.renew lease nowMs ttlMs) (.ok { lease with expiresAtMs := nowMs + ttlMs })
        (leases.upsert { lease with expiresAtMs := nowMs + ttlMs })
  | released (lease : ExecutionLease) (row : LeaseRow) (hrow : leases.holds lease row) :
      Served leases (.release lease) (.ok ()) (Function.update leases lease.executionId none)
  | acquireRefused (executionId ownerId : String) (nowMs ttlMs : UInt64) (row : LeaseRow)
      (hrow : leases executionId = some row) (hheld : nowMs < row.expiresAtMs.toUInt64 ∧ row.ownerId ≠ ownerId)
      (e : LedgerError) : Served leases (.acquire executionId ownerId nowMs ttlMs) (.error e) leases
  | renewRefused (lease : ExecutionLease) (nowMs ttlMs : UInt64) (e : LedgerError) :
      Served leases (.renew lease nowMs ttlMs) (.error e) leases
  | releaseRefused (lease : ExecutionLease) (e : LedgerError) : Served leases (.release lease) (.error e) leases

theorem served (leases : LeaseTable) (call : LeaseCall) :
    Served leases call (leaseStore.step leases call).1 (leaseStore.step leases call).2 := by
  cases call with
  | acquire executionId ownerId nowMs ttlMs =>
    show Served leases (.acquire executionId ownerId nowMs ttlMs)
      (acquireLease leases executionId ownerId nowMs ttlMs).1 (acquireLease leases executionId ownerId nowMs ttlMs).2
    unfold acquireLease
    cases hrow : leases executionId with
    | none => exact .first _ _ _ _ hrow
    | some row =>
      dsimp only
      split_ifs with hheld
      · exact .acquireRefused _ _ _ _ row hrow hheld _
      · refine .next _ _ _ _ row hrow ?_
        by_cases hexpired : row.expiresAtMs.toUInt64 ≤ nowMs
        · exact .inl hexpired
        · exact .inr (by_contra fun hother => hheld ⟨UInt64.not_le.1 hexpired, hother⟩)
  | renew lease nowMs ttlMs =>
    show Served leases (.renew lease nowMs ttlMs) (renewLease leases lease nowMs ttlMs).1
      (renewLease leases lease nowMs ttlMs).2
    unfold renewLease
    cases hrow : leases lease.executionId with
    | none => exact .renewRefused _ _ _ _
    | some row =>
      dsimp only
      split_ifs with hsame
      · have hput : { row with expiresAtMs := (nowMs + ttlMs).toInt64 } =
            (⟨lease.ownerId, lease.revision.toInt64, (nowMs + ttlMs).toInt64⟩ : LeaseRow) := by
          rw [← hsame.1, ← hsame.2.1]
        rw [hput]
        exact .renewed lease nowMs ttlMs row ⟨hrow, hsame.1, hsame.2.1⟩
      · exact .renewRefused _ _ _ _
  | release lease =>
    show Served leases (.release lease) (releaseLease leases lease).1 (releaseLease leases lease).2
    unfold releaseLease
    cases hrow : leases lease.executionId with
    | none => exact .releaseRefused _ _
    | some row =>
      dsimp only
      split_ifs with hsame
      · exact .released lease row ⟨hrow, hsame.1, hsame.2⟩
      · exact .releaseRefused _ _

end Serving

section Fencing

/-- What a lease is fenced by; its expiry is not. -/
def ExecutionLease.token (lease : ExecutionLease) : String × String × UInt64 :=
  (lease.executionId, lease.ownerId, lease.revision)

/-- The leases that acquires of an execution were answered, in order. -/
def acquired (executionId : String) (past : List Answered) : List ExecutionLease :=
  past.filterMap fun
    | ⟨.acquire id _ _ _, .ok lease⟩ => if id = executionId then some lease else none
    | _ => none

/-- The leases that were handed out. -/
def issued (past : List Answered) : List ExecutionLease :=
  past.filterMap fun
    | ⟨.acquire .., .ok lease⟩ | ⟨.renew .., .ok lease⟩ => some lease
    | _ => none

/-- The leases that were released. -/
def releasedLeases (past : List Answered) : List ExecutionLease :=
  past.filterMap fun
    | ⟨.release lease, .ok ()⟩ => some lease
    | _ => none

/-- What one answered call does to the lease that an owner holds. -/
def heldNext (executionId ownerId : String) (held : Option ExecutionLease) : Answered → Option ExecutionLease
  | ⟨.acquire id owner _ _, .ok lease⟩ => if id = executionId ∧ owner = ownerId then some lease else held
  | ⟨.renew old _ _, .ok lease⟩ =>
      if old.executionId = executionId ∧ old.ownerId = ownerId then some lease else held
  | ⟨.release old, .ok ()⟩ => if old.executionId = executionId ∧ old.ownerId = ownerId then none else held
  | _ => held

/-- The last lease of an execution that an owner was handed and has not released. -/
def held (executionId ownerId : String) (past : List Answered) : Option ExecutionLease :=
  past.foldl (heldNext executionId ownerId) none

/-- The latest time that a caller passed. -/
def clock (calls : List LeaseCall) : UInt64 := ((calls.filterMap LeaseCall.nowMs?).getLast?).getD 0

/-- A lease that was released, or after which its execution was acquired again. -/
inductive Retired (past : List Answered) (lease : ExecutionLease) : Prop where
  | released (h : ∃ old ∈ releasedLeases past, old.token = lease.token)
  | acquired (before after : List Answered) (next : Answered) (hpast : past = before ++ next :: after)
      (hold : ∃ old ∈ issued before, old.token = lease.token) (hnext : Ledger.acquired lease.executionId [next] ≠ [])

/-- **What a fencing token promises** of the answers of a history. -/
structure Fenced (answers : List Answered) : Prop where
  exclusive : ∀ past later, answers = past ++ later → ∀ executionId owner owner' lease lease' now,
    held executionId owner past = some lease → held executionId owner' past = some lease' →
      clock (past.map (·.1)) ≤ now → now < lease.expiresAtMs → now < lease'.expiresAtMs → owner = owner'
  increasing : ∀ executionId, (acquired executionId answers).Pairwise (·.revision < ·.revision)
  renewal : ∀ past lease nowMs ttlMs (a : Except LedgerError ExecutionLease) later,
    answers = past ++ ⟨.renew lease nowMs ttlMs, a⟩ :: later → Retired past lease → ∀ saved, a ≠ .ok saved
  release : ∀ past lease (a : Except LedgerError Unit) later,
    answers = past ++ ⟨.release lease, a⟩ :: later → Retired past lease → a ≠ .ok ()

/-- The times of a history do not go back, and no deadline overflows. -/
structure Timely (calls : List LeaseCall) : Prop where
  ascending : (calls.filterMap LeaseCall.nowMs?).Pairwise (· ≤ ·)
  bounded : ∀ call ∈ calls, match call with
    | .acquire _ _ nowMs ttlMs | .renew _ nowMs ttlMs => nowMs.toNat + ttlMs.toNat < 2 ^ 64
    | .release _ => True

/-- The answers of a history from a new table. -/
def leaseAnswers (calls : List LeaseCall) : List Answered := leaseStore.answers noLeases calls

/-- An acquire of an execution that was not released before, unless it is refused
at the last revision. -/
def AcquiresAnew (past : List Answered) (leases : LeaseTable) : LeaseCall → Prop
  | .acquire executionId ownerId nowMs _ =>
      (∀ lease ∈ releasedLeases past, lease.executionId ≠ executionId) ∧
        ∀ row ∈ leases executionId, row.revision.toUInt64 = UInt64.ofNat (2 ^ 64 - 1) →
          nowMs < row.expiresAtMs.toUInt64 ∧ row.ownerId ≠ ownerId
  | .renew .. | .release _ => True

instance (past : List Answered) (leases : LeaseTable) : (call : LeaseCall) → Decidable (AcquiresAnew past leases call)
  | .acquire .. => inferInstanceAs (Decidable (_ ∧ _))
  | .renew .. | .release _ => inferInstanceAs (Decidable True)

/-- A call of a history whose acquires are not made after a release. -/
def FollowsNoRelease (before : List LeaseCall) (call : LeaseCall) : Prop :=
  AcquiresAnew (leaseAnswers before) (leaseStore.after noLeases before) call

end Fencing

section Tokens

variable {past past' : List Answered} {leases leases' : LeaseTable} {call : LeaseCall} {a : call.Answer}
  {executionId ownerId : String}

@[simp] theorem acquired_append : acquired executionId (past ++ past') = acquired executionId past ++ acquired executionId past' :=
  List.filterMap_append ..

@[simp] theorem issued_append : issued (past ++ past') = issued past ++ issued past' := List.filterMap_append ..

@[simp] theorem releasedLeases_append : releasedLeases (past ++ past') = releasedLeases past ++ releasedLeases past' :=
  List.filterMap_append ..

theorem acquired_single (executionId id owner : String) (nowMs ttlMs : UInt64) (lease : ExecutionLease) :
    acquired executionId [⟨.acquire id owner nowMs ttlMs, .ok lease⟩] = if id = executionId then [lease] else [] := by
  by_cases hid : id = executionId
  · simp [acquired, hid]
  · simp [acquired, hid]

/-- The revisions of an execution so far, and the row that holds the last of them. -/
structure Tokens (past : List Answered) (leases : LeaseTable) : Prop where
  increasing : ∀ x, (acquired x past).Pairwise (·.revision < ·.revision)
  positive : ∀ x, ∀ lease ∈ acquired x past, 0 < lease.revision
  current : ∀ x row, leases x = some row → ∃ lease, (acquired x past).getLast? = some lease ∧
    lease.executionId = x ∧ row.ownerId = lease.ownerId ∧ row.revision = lease.revision.toInt64
  kept : ∀ x row, leases x = some row → ∀ lease ∈ releasedLeases past, lease.executionId ≠ x
  gone : ∀ x, leases x = none → acquired x past = [] ∨ ∃ lease ∈ releasedLeases past, lease.executionId = x
  known : ∀ lease ∈ issued past, ∃ first ∈ acquired lease.executionId past, first.token = lease.token
  acquired : ∀ lease ∈ releasedLeases past, acquired lease.executionId past ≠ []

theorem tokens_nil : Tokens [] noLeases where
  increasing := fun _ => List.Pairwise.nil
  positive := fun _ _ h => absurd h List.not_mem_nil
  current := fun _ _ h => nomatch h
  kept := fun _ _ h => nomatch h
  gone := fun _ _ => .inl rfl
  known := fun _ h => absurd h List.not_mem_nil
  acquired := fun _ h => absurd h List.not_mem_nil

theorem Tokens.quiet (h : Tokens past leases) (hacquired : ∀ x, Ledger.acquired x [⟨call, a⟩] = [])
    (hissued : issued [⟨call, a⟩] = []) (hreleased : releasedLeases [⟨call, a⟩] = []) :
    Tokens (past ++ [⟨call, a⟩]) leases := by
  constructor
  · intro x
    rw [acquired_append, hacquired, List.append_nil]
    exact h.increasing x
  · intro x
    rw [acquired_append, hacquired, List.append_nil]
    exact h.positive x
  · intro x
    rw [acquired_append, hacquired, List.append_nil]
    exact h.current x
  · rw [releasedLeases_append, hreleased, List.append_nil]
    exact h.kept
  · intro x
    rw [acquired_append, hacquired, List.append_nil, releasedLeases_append, hreleased, List.append_nil]
    exact h.gone x
  · intro lease
    rw [issued_append, hissued, List.append_nil, acquired_append, hacquired, List.append_nil]
    exact h.known lease
  · intro lease
    rw [releasedLeases_append, hreleased, List.append_nil, acquired_append, hacquired, List.append_nil]
    exact h.acquired lease

theorem Tokens.grant (h : Tokens past leases) {nowMs ttlMs revision : UInt64} {lease : ExecutionLease}
    (hlease : lease = ⟨executionId, ownerId, revision, nowMs + ttlMs⟩)
    (habove : ∀ old ∈ Ledger.acquired executionId past, old.revision < revision) (hpos : 0 < revision)
    (hkept : ∀ old ∈ releasedLeases past, old.executionId ≠ executionId) :
    Tokens (past ++ [⟨.acquire executionId ownerId nowMs ttlMs, .ok lease⟩]) (leases.upsert lease) := by
  subst hlease
  have hissued : issued [⟨.acquire executionId ownerId nowMs ttlMs, .ok ⟨executionId, ownerId, revision, nowMs + ttlMs⟩⟩] =
    [⟨executionId, ownerId, revision, nowMs + ttlMs⟩] := rfl
  have hreleased : releasedLeases
    [⟨.acquire executionId ownerId nowMs ttlMs, .ok ⟨executionId, ownerId, revision, nowMs + ttlMs⟩⟩] = [] := rfl
  constructor
  · intro x
    rw [acquired_append, acquired_single]
    split_ifs with hx
    · subst hx
      refine List.pairwise_append.2 ⟨h.increasing _, List.pairwise_singleton .., fun old hold new hnew => ?_⟩
      obtain rfl := List.mem_singleton.1 hnew
      exact habove old hold
    · rw [List.append_nil]
      exact h.increasing x
  · intro x old hold
    rw [acquired_append, acquired_single] at hold
    rcases List.mem_append.1 hold with hold | hold
    · exact h.positive x old hold
    · split_ifs at hold with hx
      · obtain rfl := List.mem_singleton.1 hold
        exact hpos
      · exact absurd hold List.not_mem_nil
  · intro x row hrow
    rw [acquired_append, acquired_single]
    by_cases hx : executionId = x
    · subst hx
      rw [LeaseTable.upsert, Function.update_self] at hrow
      obtain rfl := Option.some.inj hrow
      rw [if_pos rfl, List.getLast?_concat]
      exact ⟨_, rfl, rfl, rfl, rfl⟩
    · rw [LeaseTable.upsert, Function.update_of_ne (Ne.symm hx)] at hrow
      rw [if_neg hx, List.append_nil]
      exact h.current x row hrow
  · intro x row hrow
    rw [releasedLeases_append, hreleased, List.append_nil]
    by_cases hx : executionId = x
    · exact hx ▸ hkept
    · rw [LeaseTable.upsert, Function.update_of_ne (Ne.symm hx)] at hrow
      exact h.kept x row hrow
  · intro x hfree
    rw [acquired_append, acquired_single, releasedLeases_append, hreleased, List.append_nil]
    by_cases hx : executionId = x
    · subst hx
      rw [LeaseTable.upsert, Function.update_self] at hfree
      exact nomatch hfree
    · rw [LeaseTable.upsert, Function.update_of_ne (Ne.symm hx)] at hfree
      rw [if_neg hx, List.append_nil]
      exact h.gone x hfree
  · intro old hold
    rw [issued_append, hissued] at hold
    rcases List.mem_append.1 hold with hold | hold
    · obtain ⟨first, hfirst, htoken⟩ := h.known old hold
      rw [acquired_append]
      exact ⟨first, List.mem_append_left _ hfirst, htoken⟩
    · obtain rfl := List.mem_singleton.1 hold
      rw [acquired_append, acquired_single, if_pos rfl]
      exact ⟨_, List.mem_append_right _ (List.mem_singleton.2 rfl), rfl⟩
  · intro old hold
    rw [releasedLeases_append, hreleased, List.append_nil] at hold
    rw [acquired_append]
    exact List.append_ne_nil_of_left_ne_nil (h.acquired old hold) _

theorem revision_le_last {leases : List ExecutionLease} (hasc : leases.Pairwise (·.revision < ·.revision))
    {last : ExecutionLease} (hlast : leases.getLast? = some last) {lease : ExecutionLease} (h : lease ∈ leases) :
    lease.revision ≤ last.revision := by
  obtain ⟨init, rfl⟩ := List.getLast?_eq_some_iff.1 hlast
  rcases List.mem_append.1 h with h | h
  · exact UInt64.le_of_lt ((List.pairwise_append.1 hasc).2.2 lease h last (List.mem_singleton.2 rfl))
  · exact List.mem_singleton.1 h ▸ UInt64.le_refl _

theorem revision_lt_next {revision : UInt64} (h : revision ≠ UInt64.ofNat (2 ^ 64 - 1)) : revision < revision + 1 := by
  have hmax : revision.toNat ≠ 2 ^ 64 - 1 := fun hnat => h (UInt64.toNat_inj.1 hnat)
  have hsize := revision.toNat_lt
  rw [UInt64.lt_iff_toNat_lt, UInt64.toNat_add]
  show revision.toNat < (revision.toNat + 1) % 2 ^ 64
  rw [Nat.mod_eq_of_lt (by omega)]
  omega

theorem Tokens.renew (h : Tokens past leases) {nowMs ttlMs : UInt64} {lease : ExecutionLease} {row : LeaseRow}
    (hrow : leases.holds lease row) :
    Tokens (past ++ [⟨.renew lease nowMs ttlMs, .ok { lease with expiresAtMs := nowMs + ttlMs }⟩])
      (leases.upsert { lease with expiresAtMs := nowMs + ttlMs }) := by
  obtain ⟨hrow, howner, hrevision⟩ := hrow
  have hissued : issued [⟨.renew lease nowMs ttlMs, .ok { lease with expiresAtMs := nowMs + ttlMs }⟩] =
    [{ lease with expiresAtMs := nowMs + ttlMs }] := rfl
  have hacquired : ∀ x, Ledger.acquired x
    (past ++ [⟨.renew lease nowMs ttlMs, .ok { lease with expiresAtMs := nowMs + ttlMs }⟩]) = Ledger.acquired x past :=
      fun x => acquired_append.trans (List.append_nil _)
  have hreleased : releasedLeases
    (past ++ [⟨.renew lease nowMs ttlMs, .ok { lease with expiresAtMs := nowMs + ttlMs }⟩]) = releasedLeases past :=
      releasedLeases_append.trans (List.append_nil _)
  obtain ⟨last, hlast, hid, hlastOwner, hlastRevision⟩ := h.current _ row hrow
  constructor
  · simpa only [hacquired] using h.increasing
  · simpa only [hacquired] using h.positive
  · intro x found hfound
    rw [hacquired]
    by_cases hx : lease.executionId = x
    · subst hx
      rw [LeaseTable.upsert, Function.update_self] at hfound
      obtain rfl := Option.some.inj hfound
      exact ⟨last, hlast, hid, howner.symm.trans hlastOwner, hrevision.symm.trans hlastRevision⟩
    · rw [LeaseTable.upsert, Function.update_of_ne (Ne.symm hx)] at hfound
      exact h.current x found hfound
  · intro x found hfound
    rw [hreleased]
    by_cases hx : lease.executionId = x
    · exact hx ▸ h.kept _ row hrow
    · rw [LeaseTable.upsert, Function.update_of_ne (Ne.symm hx)] at hfound
      exact h.kept x found hfound
  · intro x hfree
    rw [hacquired, hreleased]
    by_cases hx : lease.executionId = x
    · subst hx
      rw [LeaseTable.upsert, Function.update_self] at hfree
      exact nomatch hfree
    · rw [LeaseTable.upsert, Function.update_of_ne (Ne.symm hx)] at hfree
      exact h.gone x hfree
  · intro old hold
    rw [issued_append, hissued] at hold
    rw [hacquired]
    rcases List.mem_append.1 hold with hold | hold
    · exact h.known old hold
    · obtain rfl := List.mem_singleton.1 hold
      refine ⟨last, List.mem_of_getLast? hlast, ?_⟩
      have hsame : last.revision = lease.revision := by
        rw [← last.revision.toUInt64_toInt64, ← hlastRevision, hrevision, UInt64.toUInt64_toInt64]
      exact Prod.ext hid (Prod.ext (hlastOwner.symm.trans howner) hsame)
  · simpa only [hacquired, hreleased] using h.acquired

theorem Tokens.release (h : Tokens past leases) {lease : ExecutionLease} {row : LeaseRow} (hrow : leases.holds lease row) :
    Tokens (past ++ [⟨.release lease, .ok ()⟩]) (Function.update leases lease.executionId none) := by
  have hacquired : ∀ x, Ledger.acquired x (past ++ [⟨.release lease, .ok ()⟩]) = Ledger.acquired x past :=
    fun x => acquired_append.trans (List.append_nil _)
  have hreleased : releasedLeases (past ++ [⟨.release lease, .ok ()⟩]) = releasedLeases past ++ [lease] :=
    releasedLeases_append
  obtain ⟨last, hlast, -⟩ := h.current _ row hrow.1
  constructor
  · simpa only [hacquired] using h.increasing
  · simpa only [hacquired] using h.positive
  · intro x found hfound
    rw [hacquired]
    by_cases hx : x = lease.executionId
    · rw [hx, Function.update_self] at hfound
      exact nomatch hfound
    · rw [Function.update_of_ne hx] at hfound
      exact h.current x found hfound
  · intro x found hfound old hold
    by_cases hx : x = lease.executionId
    · rw [hx, Function.update_self] at hfound
      exact nomatch hfound
    · rw [Function.update_of_ne hx] at hfound
      rw [hreleased] at hold
      rcases List.mem_append.1 hold with hold | hold
      · exact h.kept x found hfound old hold
      · exact List.mem_singleton.1 hold ▸ Ne.symm hx
  · intro x hfree
    rw [hacquired, hreleased]
    by_cases hx : x = lease.executionId
    · exact .inr ⟨lease, List.mem_append_right _ (List.mem_singleton.2 rfl), hx.symm⟩
    · rw [Function.update_of_ne hx] at hfree
      exact (h.gone x hfree).imp_right fun ⟨old, hold, hid⟩ => ⟨old, List.mem_append_left _ hold, hid⟩
  · intro old hold
    rw [issued_append] at hold
    rw [hacquired]
    exact h.known old ((List.mem_append.1 hold).resolve_right List.not_mem_nil)
  · intro old hold
    rw [hreleased] at hold
    rw [hacquired]
    rcases List.mem_append.1 hold with hold | hold
    · exact h.acquired old hold
    · obtain rfl := List.mem_singleton.1 hold
      intro hnone
      rw [hnone] at hlast
      exact nomatch hlast

/-- **Every call keeps the tokens**, if no acquire follows a release. -/
theorem Tokens.step (h : Tokens past leases) (hanew : AcquiresAnew past leases call)
    (hserved : Served leases call a leases') : Tokens (past ++ [⟨call, a⟩]) leases' := by
  cases hserved with
  | first executionId ownerId nowMs ttlMs hfree =>
    have hnone : Ledger.acquired executionId past = [] :=
      (h.gone executionId hfree).resolve_right fun ⟨lease, hlease, hid⟩ => hanew.1 lease hlease hid
    refine h.grant rfl (fun old hold => ?_) (by decide) hanew.1
    rw [hnone] at hold
    exact absurd hold List.not_mem_nil
  | next executionId ownerId nowMs ttlMs row hrow hmay =>
    obtain ⟨last, hlast, -, -, hrevision⟩ := h.current executionId row hrow
    have hlastRevision : row.revision.toUInt64 = last.revision := by
      rw [hrevision, UInt64.toUInt64_toInt64]
    have hnext : row.revision.toUInt64 < row.revision.toUInt64 + 1 := by
      refine revision_lt_next fun hmax => ?_
      obtain ⟨hlive, hother⟩ := hanew.2 row hrow hmax
      exact hmay.elim (UInt64.not_le.2 hlive) hother
    refine h.grant rfl (fun old hold => ?_) (UInt64.lt_of_le_of_lt (UInt64.zero_le) hnext) hanew.1
    exact UInt64.lt_of_le_of_lt (hlastRevision ▸ revision_le_last (h.increasing executionId) hlast hold) hnext
  | renewed lease nowMs ttlMs row hrow => exact h.renew hrow
  | released lease row hrow => exact h.release hrow
  | acquireRefused executionId ownerId nowMs ttlMs row hrow hheld e => exact h.quiet (fun _ => rfl) rfl rfl
  | renewRefused lease nowMs ttlMs e => exact h.quiet (fun _ => rfl) rfl rfl
  | releaseRefused lease e => exact h.quiet (fun _ => rfl) rfl rfl

end Tokens

section Holders

variable {past : List Answered} {leases leases' : LeaseTable} {call : LeaseCall} {a : call.Answer} {c : Answered}

/-- A lease that an owner holds is the row of its execution, or has expired. -/
def HoldersCurrent (past : List Answered) (leases : LeaseTable) : Prop :=
  ∀ x o lease, held x o past = some lease →
    (∃ row, leases x = some row ∧ row.ownerId = o ∧ row.expiresAtMs.toUInt64 = lease.expiresAtMs) ∨
      lease.expiresAtMs ≤ clock (past.map (·.1))

theorem clock_snoc (calls : List LeaseCall) (call : LeaseCall) :
    clock (calls ++ [call]) = call.nowMs?.getD (clock calls) := by
  rw [clock, List.filterMap_append]
  cases hnow : call.nowMs? with
  | none =>
    rw [List.filterMap_cons_none hnow, List.filterMap_nil, List.append_nil]
    rfl
  | some now =>
    rw [List.filterMap_cons_some hnow, List.filterMap_nil, List.getLast?_concat]
    rfl

theorem clock_append_single : clock ((past ++ [c]).map (·.1)) = c.1.nowMs?.getD (clock (past.map (·.1))) := by
  rw [List.map_append]
  exact clock_snoc _ _

theorem held_append_single (x o : String) : held x o (past ++ [c]) = heldNext x o (held x o past) c :=
  List.foldl_append ..

/-- An owner's new lease is the row; whoever held one before it has expired. -/
theorem HoldersCurrent.put (h : HoldersCurrent past leases) {lease : ExecutionLease} {now : UInt64}
    (hnext : ∀ x o cur, heldNext x o cur c = if lease.executionId = x ∧ lease.ownerId = o then some lease else cur)
    (hnow : c.1.nowMs? = some now) (hlater : clock (past.map (·.1)) ≤ now)
    (hmay : ∀ row, leases lease.executionId = some row → row.expiresAtMs.toUInt64 ≤ now ∨ row.ownerId = lease.ownerId) :
    HoldersCurrent (past ++ [c]) (leases.upsert lease) := by
  intro x o found hfound
  rw [held_append_single, hnext] at hfound
  rw [clock_append_single, hnow, Option.getD_some]
  split_ifs at hfound with hsame
  · obtain rfl := Option.some.inj hfound
    obtain ⟨rfl, rfl⟩ := hsame
    refine .inl ⟨_, Function.update_self .., rfl, UInt64.toUInt64_toInt64 _⟩
  · rcases h x o found hfound with ⟨row, hrow, howner, hexpiry⟩ | hexpired
    · by_cases hx : x = lease.executionId
      · subst hx
        rcases hmay row hrow with hexpired | hother
        · exact .inr (hexpiry ▸ hexpired)
        · exact absurd ⟨rfl, hother.symm.trans howner⟩ hsame
      · exact .inl ⟨row, (Function.update_of_ne hx ..).trans hrow, howner, hexpiry⟩
    · exact .inr (UInt64.le_trans hexpired hlater)

theorem HoldersCurrent.step (h : HoldersCurrent past leases) (hserved : Served leases call a leases')
    (hlater : ∀ now, call.nowMs? = some now → clock (past.map (·.1)) ≤ now) :
    HoldersCurrent (past ++ [⟨call, a⟩]) leases' := by
  have hrefused : (∀ x o cur, heldNext x o cur ⟨call, a⟩ = cur) → HoldersCurrent (past ++ [⟨call, a⟩]) leases := by
    intro hsame x o found hfound
    rw [held_append_single, hsame] at hfound
    rw [clock_append_single]
    refine (h x o found hfound).imp_right fun hexpired => ?_
    cases hnow : call.nowMs? with
    | none => exact hexpired
    | some now => exact UInt64.le_trans hexpired (hlater now hnow)
  cases hserved with
  | first executionId ownerId nowMs ttlMs hfree =>
    refine h.put (fun x o cur => rfl) rfl (hlater nowMs rfl) fun row hrow => ?_
    exact nomatch hfree.symm.trans hrow
  | next executionId ownerId nowMs ttlMs row hrow hmay =>
    refine h.put (fun x o cur => rfl) rfl (hlater nowMs rfl) fun found hfound => ?_
    obtain rfl := Option.some.inj (hrow.symm.trans hfound)
    exact hmay
  | renewed lease nowMs ttlMs row hrow =>
    refine h.put (fun x o cur => rfl) rfl (hlater nowMs rfl) fun found hfound => ?_
    obtain rfl := Option.some.inj (hrow.1.symm.trans hfound)
    exact .inr hrow.2.1
  | released lease row hrow =>
    intro x o found hfound
    have hnext : heldNext x o (held x o past) ⟨.release lease, .ok ()⟩ =
        if lease.executionId = x ∧ lease.ownerId = o then none else held x o past := rfl
    rw [held_append_single, hnext] at hfound
    rw [clock_append_single]
    split_ifs at hfound with hsame
    refine (h x o found hfound).imp_left fun ⟨other, hother, howner, hexpiry⟩ => ?_
    by_cases hx : x = lease.executionId
    · subst hx
      obtain rfl := Option.some.inj (hrow.1.symm.trans hother)
      exact absurd ⟨rfl, hrow.2.1.symm.trans howner⟩ hsame
    · exact ⟨other, (Function.update_of_ne hx ..).trans hother, howner, hexpiry⟩
  | acquireRefused executionId ownerId nowMs ttlMs row hrow hheld e => exact hrefused fun _ _ _ => rfl
  | renewRefused lease nowMs ttlMs e => exact hrefused fun _ _ _ => rfl
  | releaseRefused lease e => exact hrefused fun _ _ _ => rfl

end Holders

section Runs

variable {calls before : List LeaseCall} {past : List Answered}

theorem leaseAnswers_snoc (calls : List LeaseCall) (call : LeaseCall) :
    leaseAnswers (calls ++ [call]) = leaseAnswers calls ++ [⟨call, (leaseStore.step (leaseStore.after noLeases calls) call).1⟩] :=
  answers_append

theorem map_leaseAnswers (calls : List LeaseCall) : (leaseAnswers calls).map (·.1) = calls := map_answers

theorem Timely.init {later : List LeaseCall} (h : Timely (before ++ later)) : Timely before where
  ascending := by
    have hasc := h.ascending
    rw [List.filterMap_append] at hasc
    exact (List.pairwise_append.1 hasc).1
  bounded := fun call hcall => h.bounded call (List.mem_append_left _ hcall)

theorem Timely.later {call : LeaseCall} (h : Timely (calls ++ [call])) {now : UInt64} (hnow : call.nowMs? = some now) :
    clock calls ≤ now := by
  have hasc := h.ascending
  rw [List.filterMap_append, List.filterMap_cons_some hnow, List.filterMap_nil, List.pairwise_append] at hasc
  rw [clock]
  cases hlast : (calls.filterMap LeaseCall.nowMs?).getLast? with
  | none => exact UInt64.zero_le
  | some last => exact hasc.2.2 last (List.mem_of_getLast? hlast) now (List.mem_singleton.2 rfl)

theorem tokens_after (h : Along FollowsNoRelease calls) :
    Tokens (leaseAnswers calls) (leaseStore.after noLeases calls) := by
  refine alongInvariant (I := fun past leases => Tokens (leaseAnswers past) leases) (fun past call ih hanew => ?_)
    tokens_nil h
  rw [leaseAnswers_snoc]
  exact ih.step hanew (served _ call)

theorem holders_after (h : Timely calls) :
    HoldersCurrent (leaseAnswers calls) (leaseStore.after noLeases calls) := by
  refine alongInvariant (I := fun past leases => Timely past → HoldersCurrent (leaseAnswers past) leases)
    (P := fun _ _ => True) (fun past call ih _ htimely => ?_) (fun _ x o lease hlease => nomatch hlease)
    (fun _ _ _ _ => trivial) h
  rw [leaseAnswers_snoc]
  refine (ih htimely.init).step (served _ call) fun now hnow => ?_
  rw [map_leaseAnswers]
  exact htimely.later hnow

theorem Tokens.not_retired {leases : LeaseTable} (h : Tokens (leaseAnswers before) leases)
    (hbefore : Along FollowsNoRelease before) {lease : ExecutionLease} {row : LeaseRow} (hrow : leases.holds lease row) :
    ¬Retired (leaseAnswers before) lease := by
  obtain ⟨hrow, howner, hrevision⟩ := hrow
  intro hretired
  cases hretired with
  | released hreleased =>
    obtain ⟨old, hold, htoken⟩ := hreleased
    exact h.kept _ row hrow old hold (congrArg Prod.fst htoken)
  | acquired first after next hpast hold hnext =>
    obtain ⟨old, hold, htoken⟩ := hold
    obtain ⟨earlier, rest, rfl, rfl⟩ := exists_of_answers_append hpast
    obtain ⟨granted, hgranted, hsame⟩ := (tokens_after hbefore.init).known old hold
    have htokens : granted.token = lease.token := hsame.trans htoken
    have hid : old.executionId = lease.executionId := congrArg Prod.fst htoken
    rw [hid] at hgranted
    obtain ⟨last, hlast, -, -, hlastRevision⟩ := h.current _ row hrow
    have hasc := h.increasing lease.executionId
    rw [hpast, ← List.singleton_append, acquired_append, acquired_append] at hlast hasc
    have hlater : last ∈ Ledger.acquired lease.executionId [next] ++ Ledger.acquired lease.executionId after := by
      rw [List.getLast?_append_of_ne_nil _ (List.append_ne_nil_of_left_ne_nil hnext _)] at hlast
      exact List.mem_of_getLast? hlast
    have hbelow := (List.pairwise_append.1 hasc).2.2 granted hgranted last hlater
    have hlastSame : last.revision = granted.revision := by
      have hgrantedRevision : granted.revision = lease.revision := congrArg (·.2.2) htokens
      rw [hgrantedRevision, ← UInt64.toUInt64_toInt64 last.revision, ← hlastRevision, hrevision, UInt64.toUInt64_toInt64]
    rw [hlastSame] at hbelow
    exact UInt64.lt_irrefl _ hbelow

theorem Tokens.stale {leases : LeaseTable} (h : Tokens past leases) {executionId ownerId : String} {nowMs ttlMs : UInt64}
    (hstale : ¬AcquiresAnew past leases (.acquire executionId ownerId nowMs ttlMs)) :
    ∃ lease, (acquireLease leases executionId ownerId nowMs ttlMs).1 = .ok lease ∧
      ∃ old ∈ Ledger.acquired executionId past, ¬old.revision < lease.revision := by
  by_cases hreleased : ∀ lease ∈ releasedLeases past, lease.executionId ≠ executionId
  · have hrow : ∃ row, leases executionId = some row ∧ row.revision.toUInt64 = UInt64.ofNat (2 ^ 64 - 1) ∧
        ¬(nowMs < row.expiresAtMs.toUInt64 ∧ row.ownerId ≠ ownerId) := by
      by_contra hnone
      refine hstale ⟨hreleased, fun row hrow hmax => by_contra fun hrefused => hnone ⟨row, hrow, hmax, hrefused⟩⟩
    obtain ⟨row, hrow, hmax, hmay⟩ := hrow
    obtain ⟨last, hlast, -⟩ := h.current executionId row hrow
    refine ⟨⟨executionId, ownerId, row.revision.toUInt64 + 1, nowMs + ttlMs⟩, ?_, last, List.mem_of_getLast? hlast, ?_⟩
    · unfold acquireLease
      rw [hrow]
      exact congrArg Prod.fst (if_neg hmay)
    · rw [hmax]
      exact UInt64.not_lt.2 UInt64.zero_le
  · simp only [not_forall, Decidable.not_not] at hreleased
    obtain ⟨released, hmem, hid⟩ := hreleased
    have hfree : leases executionId = none := by
      cases hrow : leases executionId with
      | none => rfl
      | some row => exact absurd hid (h.kept executionId row hrow released hmem)
    obtain ⟨old, hold⟩ := List.exists_mem_of_ne_nil _ (hid ▸ h.acquired released hmem)
    refine ⟨⟨executionId, ownerId, 1, nowMs + ttlMs⟩, ?_, old, hold, ?_⟩
    · unfold acquireLease
      rw [hfree]
    · have hpos := h.positive executionId old hold
      rw [UInt64.lt_iff_toNat_lt] at hpos ⊢
      exact Nat.not_lt.2 hpos

/-- **Leases are fenced in exactly the histories** in which no acquire of an
execution follows a release of it, up to the last revision. -/
theorem fenced_iff (calls : List LeaseCall) (htimely : Timely calls) :
    Fenced (leaseAnswers calls) ↔ Along FollowsNoRelease calls := by
  constructor
  · intro hfenced
    refine along_of_first fun before call later hcalls hbefore => ?_
    cases call with
    | renew lease nowMs ttlMs => trivial
    | release lease => trivial
    | acquire executionId ownerId nowMs ttlMs =>
      by_contra hstale
      obtain ⟨lease, hlease, old, hold, hnot⟩ := (tokens_after hbefore).stale hstale
      have hsplit : leaseAnswers calls = leaseAnswers before ++
          ⟨.acquire executionId ownerId nowMs ttlMs, .ok lease⟩ ::
            leaseStore.answers (leaseStore.step (leaseStore.after noLeases before)
              (.acquire executionId ownerId nowMs ttlMs)).2 later := by
        rw [hcalls, leaseAnswers, answers_append, Machine.answers]
        have hstep : (leaseStore.step (leaseStore.after noLeases before) (.acquire executionId ownerId nowMs ttlMs)).1 =
            .ok lease := hlease
        rw [hstep]
        rfl
      have hasc := hfenced.increasing executionId
      rw [hsplit, ← List.singleton_append, acquired_append, acquired_append, acquired_single, if_pos rfl] at hasc
      exact hnot ((List.pairwise_append.1 hasc).2.2 old hold lease (List.mem_append_left _ (List.mem_singleton.2 rfl)))
  · intro halong
    have hinit : ∀ {before later}, calls = before ++ later → Along FollowsNoRelease before :=
      fun hcalls => (hcalls ▸ halong).init
    refine ⟨?_, (tokens_after halong).increasing, ?_, ?_⟩
    · intro past later hpast executionId owner owner' lease lease' now hheld hheld' hnow hlive hlive'
      obtain ⟨before, rest, hcalls, rfl⟩ := exists_of_answers_append hpast
      have hholders : HoldersCurrent (leaseAnswers before) (leaseStore.after noLeases before) :=
        holders_after (hcalls ▸ htimely).init
      have hrow : ∀ {owner lease}, held executionId owner (leaseAnswers before) = some lease → now < lease.expiresAtMs →
          ∃ row, leaseStore.after noLeases before executionId = some row ∧ row.ownerId = owner := by
        intro owner lease hheld hlive
        rcases hholders executionId owner lease hheld with ⟨row, hrow, howner, -⟩ | hexpired
        · exact ⟨row, hrow, howner⟩
        · exact absurd hlive (UInt64.not_lt.2 (UInt64.le_trans hexpired hnow))
      obtain ⟨row, hfound, rfl⟩ := hrow hheld hlive
      obtain ⟨row', hfound', rfl⟩ := hrow hheld' hlive'
      rw [Option.some.inj (hfound.symm.trans hfound')]
    · intro past lease nowMs ttlMs answer later hpast hretired saved hsaved
      obtain ⟨before, rest, hcalls, rfl, hanswer⟩ := exists_of_answers_eq hpast
      have hserved := served (leaseStore.after noLeases before) (.renew lease nowMs ttlMs)
      rw [← hanswer, hsaved] at hserved
      generalize (leaseStore.step (leaseStore.after noLeases before) (.renew lease nowMs ttlMs)).2 = leases' at hserved
      cases hserved with
      | renewed _ _ _ row hrow => exact (tokens_after (hinit hcalls)).not_retired (hinit hcalls) hrow hretired
    · intro past lease answer later hpast hretired hreleased
      obtain ⟨before, rest, hcalls, rfl, hanswer⟩ := exists_of_answers_eq hpast
      have hserved := served (leaseStore.after noLeases before) (.release lease)
      rw [← hanswer, hreleased] at hserved
      generalize (leaseStore.step (leaseStore.after noLeases before) (.release lease)).2 = leases' at hserved
      cases hserved with
      | released _ row hrow => exact (tokens_after (hinit hcalls)).not_retired (hinit hcalls) hrow hretired

def handover : List LeaseCall :=
  [.acquire "x" "owner-a" 100 10, .acquire "x" "owner-b" 105 10, .acquire "x" "owner-b" 111 10]

/-- A handover is fenced. -/
theorem fenced_handover : Timely handover ∧ Fenced (leaseAnswers handover) := by
  have htimely : Timely handover := by
    refine ⟨by decide, fun call hcall => ?_⟩
    simp only [handover, List.mem_cons, List.not_mem_nil, or_false] at hcall
    rcases hcall with rfl | rfl | rfl <;> decide
  refine ⟨htimely, (fenced_iff handover htimely).2 ?_⟩
  have hanew : ∀ (before : List LeaseCall) (call : LeaseCall),
      AcquiresAnew (leaseAnswers before) (leaseStore.after noLeases before) call → Along FollowsNoRelease before →
        Along FollowsNoRelease (before ++ [call]) := fun _ _ hcall hbefore => along_snoc.2 ⟨hbefore, hcall⟩
  have hfirst := hanew [] (.acquire "x" "owner-a" 100 10) (by decide) along_nil
  have hsecond := hanew _ (.acquire "x" "owner-b" 105 10) (by decide) hfirst
  exact hanew _ (.acquire "x" "owner-b" 111 10) (by decide) hsecond

def reacquired : List LeaseCall :=
  [.acquire "x" "owner-a" 100 10, .release ⟨"x", "owner-a", 1, 110⟩, .acquire "x" "owner-a" 101 10,
    .release ⟨"x", "owner-a", 1, 110⟩]

/-- The released handle is accepted again. -/
theorem reacquired_not_fenced : Timely reacquired ∧ ¬Fenced (leaseAnswers reacquired) := by
  refine ⟨⟨by decide, fun call hcall => ?_⟩, fun h => ?_⟩
  · simp only [reacquired, List.mem_cons, List.not_mem_nil, or_false] at hcall
    rcases hcall with rfl | rfl | rfl | rfl
    · decide
    · trivial
    · decide
    · trivial
  · have hanswers : leaseAnswers reacquired =
        leaseAnswers reacquired.dropLast ++ [⟨.release ⟨"x", "owner-a", 1, 110⟩, .ok ()⟩] := rfl
    have hreleased : ⟨"x", "owner-a", 1, 110⟩ ∈ releasedLeases (leaseAnswers reacquired.dropLast) := by
      decide
    exact h.release _ _ _ [] hanswers (.released ⟨_, hreleased, rfl⟩) rfl

end Runs

end Ledger
end Kolyan
