/-
# Reservations are stable

Any number of registries of one host namespace and capacity share a journal, and
their calls interleave operation by operation; others may append to other
streams.  The reservation stream then holds nothing but reservations, at most as
many as the capacity, each of an owner of its own (`Registered`).  Reading it back
never fails (`ends_load`), so `reserve` ends with the reservation of its owner,
unless the owner had none when the call was made (`ends_reserve`).
-/

import Kolyan.Hooks.Lawful
import Kolyan.Instances.Registry

namespace Kolyan
namespace Instances

open Checks Threads Facts

section Streams

variable {codec : RegistryCodec} {registry : InstanceRegistry}

variable (codec registry) in
/-- The record of a reservation that follows `n` others. -/
def InstanceRegistry.record (owner : InstanceOwner) (n : ℕ) : FactRecord :=
  ⟨registry.stream, n + 1, registry.draft codec owner (n + 1)⟩

variable (codec registry) in
/-- What a call is answered for it. -/
def InstanceRegistry.reservation (owner : InstanceOwner) (n : ℕ) : InstanceReservation :=
  ⟨registry.instanceId (n + 1), ⟨registry.stream, n + 1, registry.factId codec owner⟩⟩

variable (codec registry) in
/-- A stream of reservations only, no more than the capacity. -/
structure Registered (rows : List FactRecord) : Prop where
  length_le : rows.length ≤ registry.capacity
  reserved : ∀ n record, rows[n]? = some record → ∃ owner, validateOwner owner = .ok () ∧
    record = registry.record codec owner n
  owners : ∀ n m owner, rows[n]? = some (registry.record codec owner n) →
    rows[m]? = some (registry.record codec owner m) → n = m

variable (codec registry) in
/-- The `n`-th record of a stream reserves an instance for an owner. -/
def InstanceRegistry.Reserves (rows : List FactRecord) (owner : InstanceOwner) (n : ℕ) : Prop :=
  rows[n]? = some (registry.record codec owner n)

variable (codec registry) in
/-- A snapshot of the first `n` records. -/
structure Loaded (rows : List FactRecord) (n : ℕ) (snapshot : Snapshot) : Prop where
  head : snapshot.head = n
  length : snapshot.owners.length = n
  lookup : ∀ owner reservation, snapshot.owners.lookup owner = some reservation ↔
    ∃ m < n, registry.Reserves codec rows owner m ∧ reservation = registry.reservation codec owner m

variable (registry) in
/-- The instances of the first `n` records. -/
def Seen (n : ℕ) (instances : List (String × InstanceOwner)) : Prop :=
  ∀ instanceId owner, instances.lookup instanceId = some owner → ∃ m < n, instanceId = registry.instanceId (m + 1)

variable {rows rows' : List FactRecord} {n m : ℕ} {owner : InstanceOwner}

theorem instanceId_inj : registry.instanceId n = registry.instanceId m ↔ n = m := by
  constructor
  · intro h
    unfold InstanceRegistry.instanceId at h
    exact Nat.repr_inj.1 ((String.append_right_inj _).1 h)
  · rintro rfl
    rfl

theorem owner_of_record (hdecode : ∀ reserved : Reserved, codec.decodeReserved reserved.toValue = .ok reserved)
    {owner' : InstanceOwner} (h : registry.record codec owner n = registry.record codec owner' m) : owner = owner' := by
  have hpayload : Reserved.toValue ⟨registry.hostNamespace, owner, registry.instanceId (n + 1)⟩ =
      Reserved.toValue ⟨registry.hostNamespace, owner', registry.instanceId (m + 1)⟩ :=
    congrArg (fun record : FactRecord => record.draft.payload) h
  have hdecoded := hdecode ⟨registry.hostNamespace, owner, registry.instanceId (n + 1)⟩
  rw [hpayload, hdecode] at hdecoded
  exact (congrArg Reserved.owner (Except.ok.inj hdecoded)).symm

theorem InstanceRegistry.Reserves.mono (h : registry.Reserves codec rows owner n) (hrows : rows <+: rows') :
    registry.Reserves codec rows' owner n := by
  obtain ⟨later, rfl⟩ := hrows
  exact (List.getElem?_append_left (List.getElem?_eq_some_iff.1 h).1).trans h

theorem InstanceRegistry.Reserves.lt (h : registry.Reserves codec rows owner n) : n < rows.length :=
  (List.getElem?_eq_some_iff.1 h).1

theorem InstanceRegistry.Reserves.restrict (h : registry.Reserves codec rows' owner n) (hrows : rows <+: rows')
    (hn : n < rows.length) : registry.Reserves codec rows owner n := by
  obtain ⟨later, rfl⟩ := hrows
  exact (List.getElem?_append_left hn).symm.trans h

theorem Loaded.mono {snapshot : Snapshot} (h : Loaded codec registry rows n snapshot) (hrows : rows <+: rows')
    (hn : n ≤ rows.length) : Loaded codec registry rows' n snapshot where
  head := h.head
  length := h.length
  lookup owner reservation := by
    rw [h.lookup]
    refine exists_congr fun m => and_congr_right fun hm => and_congr_left fun _ => ?_
    exact ⟨fun hreserves => hreserves.mono hrows, fun hreserves => hreserves.restrict hrows (hm.trans_le hn)⟩

theorem loaded_nil : Loaded codec registry rows 0 ⟨0, []⟩ where
  head := rfl
  length := rfl
  lookup owner reservation := by simp

theorem absorb_eq_ok (hdecode : ∀ reserved : Reserved, codec.decodeReserved reserved.toValue = .ok reserved)
    (hrows : Registered codec registry rows) {loading : Loading}
    (hloaded : Loaded codec registry rows n loading.toSnapshot) (hseen : Seen registry n loading.instances)
    {record : FactRecord} (hrecord : rows[n]? = some record) :
    ∃ next, registry.absorb codec loading record = .ok next ∧
      Loaded codec registry rows (n + 1) next.toSnapshot ∧ Seen registry (n + 1) next.instances := by
  obtain ⟨owner, hvalid, rfl⟩ := hrows.reserved n record hrecord
  have hlt : n < rows.length := (List.getElem?_eq_some_iff.1 hrecord).1
  have hroom : ¬loading.owners.length ≥ registry.capacity := by
    have hlength : loading.owners.length = n := hloaded.length
    have hcapacity := hrows.length_le
    omega
  have hnew : loading.instances.lookup (registry.instanceId (n + 1)) = none := by
    refine Option.eq_none_iff_forall_ne_some.2 fun other hother => ?_
    obtain ⟨m, hm, hid⟩ := hseen _ _ hother
    have hposition := instanceId_inj.1 hid
    omega
  have hsingle : loading.owners.lookup owner = none := by
    refine Option.eq_none_iff_forall_ne_some.2 fun other hother => ?_
    obtain ⟨m, hm, hreserves, -⟩ := (hloaded.lookup owner other).1 hother
    have hposition := hrows.owners n m owner hrecord hreserves
    omega
  have hhead : loading.head = n := hloaded.head
  have habsorb : registry.absorb codec loading (registry.record codec owner n) = .ok
      { head := n + 1
        owners := (owner, registry.reservation codec owner n) :: loading.owners
        instances := (registry.instanceId (n + 1), owner) :: loading.instances } := by
    simp only [InstanceRegistry.absorb, InstanceRegistry.record, InstanceRegistry.draft, hdecode, hvalid, hhead, hnew,
      hsingle, hroom, mapError, ne_eq, not_true_eq_false, or_self, reject, if_false, ok_bind, Bool.true_eq_false,
      Option.any_none, Option.isSome_none, Bool.false_eq_true]
    rfl
  refine ⟨_, habsorb, ?_, ?_⟩
  · refine ⟨rfl, congrArg (· + 1) hloaded.length, fun other reservation => ?_⟩
    rw [List.lookup_cons]
    by_cases hother : other = owner
    · subst hother
      simp only [beq_self_eq_true, Option.some.injEq]
      constructor
      · rintro rfl
        exact ⟨n, Nat.lt_succ_self n, hrecord, rfl⟩
      · rintro ⟨m, -, hreserves, rfl⟩
        obtain rfl := hrows.owners n m other hrecord hreserves
        rfl
    · rw [beq_eq_false_iff_ne.2 hother, hloaded.lookup]
      constructor
      · rintro ⟨m, hm, h⟩
        exact ⟨m, hm.trans (Nat.lt_succ_self n), h⟩
      · rintro ⟨m, hm, hreserves, rfl⟩
        refine ⟨m, lt_of_le_of_ne (Nat.lt_succ_iff.1 hm) ?_, hreserves, rfl⟩
        rintro rfl
        exact hother (owner_of_record hdecode (Option.some.inj (hreserves.symm.trans hrecord)))
  · intro instanceId other hother
    rw [List.lookup_cons] at hother
    split at hother
    · next he => exact ⟨n, Nat.lt_succ_self n, eq_of_beq he⟩
    · obtain ⟨m, hm, hid⟩ := hseen instanceId other hother
      exact ⟨m, hm.trans (Nat.lt_succ_self n), hid⟩

theorem absorbPage_eq_ok (hdecode : ∀ reserved : Reserved, codec.decodeReserved reserved.toValue = .ok reserved)
    (hrows : Registered codec registry rows) {page : List FactRecord} (hpage : page <+: rows.drop n) {loading : Loading}
    (hloaded : Loaded codec registry rows n loading.toSnapshot) (hseen : Seen registry n loading.instances) :
    ∃ next, registry.absorbPage codec loading page = .ok next ∧
      Loaded codec registry rows (n + page.length) next.toSnapshot ∧ Seen registry (n + page.length) next.instances := by
  induction page generalizing n loading with
  | nil => exact ⟨loading, rfl, hloaded, hseen⟩
  | cons record page ih =>
    obtain ⟨later, hlater⟩ := hpage
    have hrecord : rows[n]? = some record := by
      have hfirst := congrArg List.head? hlater
      rw [List.head?_drop] at hfirst
      exact hfirst.symm
    have hrest : page <+: rows.drop (n + 1) := by
      refine ⟨later, ?_⟩
      have htail := congrArg List.tail hlater
      rw [List.tail_drop] at htail
      exact htail
    obtain ⟨next, habsorb, hloaded', hseen'⟩ := absorb_eq_ok hdecode hrows hloaded hseen hrecord
    obtain ⟨last, hpage, hloaded'', hseen''⟩ := ih hrest hloaded' hseen'
    have hlength : n + 1 + page.length = n + (record :: page).length := by
      rw [List.length_cons]
      omega
    rw [hlength] at hloaded'' hseen''
    refine ⟨last, ?_, hloaded'', hseen''⟩
    rw [InstanceRegistry.absorbPage, habsorb, ok_bind, hpage]

end Streams

section Calls

variable {J : Type} {P : FactJournal J} (contract : P.Contract) (codec : RegistryCodec) (registry : InstanceRegistry)

/-- A journal whose reservation stream holds reservations only. -/
structure Registering (j : J) : Prop where
  valid : contract.Valid j
  registered : Registered codec registry (contract.rows j registry.stream)

/-- What a call relies on between its operations: reservations stay. -/
structure Reserving (j j' : J) : Prop where
  registering : Registering contract codec registry j'
  grows : contract.rows j registry.stream <+: contract.rows j' registry.stream

/-- The operations of a call: reads, and the append of a reservation below the
capacity. -/
def mayPerform : JournalOp → Prop
  | .read _ _ _ => True
  | .append stream expected batch => stream = registry.stream ∧ expected < registry.capacity ∧
      ∃ owner, validateOwner owner = .ok () ∧ batch = [registry.draft codec owner (expected + 1)]

/-- A call among others on a shared journal. -/
def registrySetting : Setting JournalOp JournalOp.Answer J where
  act j o a j' := performFact P j o = (a, j')
  rely := Reserving contract codec registry
  allow _ o := mayPerform codec registry o

variable {contract codec registry} {j j' : J} {owner : InstanceOwner}

theorem Reserving.refl (h : Registering contract codec registry j) : Reserving contract codec registry j j :=
  ⟨h, List.prefix_rfl⟩

theorem Reserving.trans {j'' : J} (h : Reserving contract codec registry j j')
    (h' : Reserving contract codec registry j' j'') : Reserving contract codec registry j j'' :=
  ⟨h'.registering, h.grows.trans h'.grows⟩

/-- What an append that is allowed leaves behind: the journal as it was, or one
with the reservation at its place. -/
theorem append_reserves (h : Registering contract codec registry j) {expected : ℕ}
    (hcapacity : expected < registry.capacity) (hvalid : validateOwner owner = .ok ()) {records : List FactRecord}
    (happend : P.append j registry.stream expected [registry.draft codec owner (expected + 1)] = (.ok records, j')) :
    Reserving contract codec registry j j' ∧
      registry.Reserves codec (contract.rows j' registry.stream) owner expected := by
  obtain ⟨hvalid', rfl, hcases⟩ := contract.append_ok h.valid happend
  rcases hcases with ⟨rfl, hfresh, hrows⟩ | ⟨rfl, hprefix⟩
  · have hstream : contract.rows j' registry.stream = contract.rows j registry.stream ++
        [registry.record codec owner (contract.rows j registry.stream).length] := by
      rw [hrows, Function.update_self]
      rfl
    refine ⟨⟨⟨hvalid', ?_⟩, hstream ▸ List.prefix_append _ _⟩, hstream ▸ List.getElem?_concat_length⟩
    rw [hstream]
    refine ⟨?_, fun n record hrecord => ?_, fun n m other hn hm => ?_⟩
    · rw [List.length_append, List.length_singleton]
      exact hcapacity
    · rcases Nat.lt_or_ge n (contract.rows j registry.stream).length with hlt | hge
      · exact h.registered.reserved n record ((List.getElem?_append_left hlt).symm.trans hrecord)
      · have hn : n = (contract.rows j registry.stream).length := by
          have hlt := (List.getElem?_eq_some_iff.1 hrecord).1
          rw [List.length_append, List.length_singleton] at hlt
          omega
        subst hn
        exact ⟨owner, hvalid, (Option.some.inj (List.getElem?_concat_length.symm.trans hrecord)).symm⟩
    · have hrecord : ∀ {k}, (contract.rows j registry.stream ++
          [registry.record codec owner (contract.rows j registry.stream).length])[k]? =
            some (registry.record codec other k) → registry.record codec other k ∈ contract.rows j' registry.stream := by
        intro k hk
        rw [hstream]
        exact List.mem_of_getElem? hk
      have hsame := contract.fact_unique hvalid' (hrecord hn) (hrecord hm) rfl
      exact Nat.succ.inj (congrArg FactRecord.position hsame)
  · refine ⟨.refl h, ?_⟩
    obtain ⟨later, hlater⟩ := hprefix
    have hhead := congrArg List.head? hlater
    rw [List.head?_drop] at hhead
    exact hhead.symm

theorem Reserving.perform (h : Registering contract codec registry j) {o : JournalOp} (ho : mayPerform codec registry o)
    {a : o.Answer} (hact : performFact P j o = (a, j')) : Reserving contract codec registry j j' := by
  cases o with
  | read stream after limit =>
    obtain ⟨-, rfl⟩ := Prod.mk.inj hact
    exact .refl h
  | append stream expected batch =>
    obtain ⟨rfl, hcapacity, owner, hvalid, rfl⟩ := ho
    cases a with
    | error error =>
      obtain rfl := contract.append_error h.valid hact
      exact .refl h
    | ok records => exact (append_reserves h hcapacity hvalid hact).1

section Reading

variable (hdecode : ∀ reserved : Reserved, codec.decodeReserved reserved.toValue = .ok reserved)
  (hstream : Facts.identity registry.stream = .ok ())

include hstream

theorem validateRead_stream {limit : ℕ} (hlimit : 1 ≤ limit) (hmax : limit ≤ 1024) :
    validateRead registry.stream limit = .ok () := by
  rw [validateRead, hstream, ok_bind, reject_of_not (not_not.2 ⟨hlimit, hmax⟩)]

include hdecode

/-- **The loop of `load`**, from a snapshot of the first records on: each page that
is not the last one has a record, and there are rounds enough for all of them. -/
theorem ends_loadPages (h : Registering contract codec registry j) {rounds n : ℕ} {loading : Loading}
    (hn : n ≤ (contract.rows j registry.stream).length) (hrounds : registry.capacity < n + rounds)
    (hloaded : Loaded codec registry (contract.rows j registry.stream) n loading.toSnapshot)
    (hseen : Seen registry n loading.instances) :
    Prog.Ends (registrySetting contract codec registry) (registry.loadPages codec rounds loading).run
      (fun r j' => ∃ snapshot, r = .ok snapshot ∧ Reserving contract codec registry j j' ∧
        Loaded codec registry (contract.rows j' registry.stream) (contract.rows j' registry.stream).length snapshot) j := by
  induction rounds generalizing j n loading with
  | zero =>
    have hcapacity := h.registered.length_le
    omega
  | succ rounds ih =>
    refine Fallible.ends_bind (Fallible.ends_mapError fun j₁ hj₁ => ⟨trivial, ?_⟩)
    rintro answer j₂ hact
    obtain ⟨rfl, rfl⟩ := Prod.mk.inj hact
    have hregistered := hj₁.registering.registered
    have hn₁ : n ≤ (contract.rows j₁ registry.stream).length := hn.trans hj₁.grows.length_le
    have hloaded₁ := hloaded.mono hj₁.grows hn
    have hlength : loading.owners.length = n := hloaded.length
    have hlimit : 1 ≤ registry.pageLimit loading.toSnapshot ∧ registry.pageLimit loading.toSnapshot ≤ 1024 := by
      have hcapacity := hregistered.length_le
      rw [InstanceRegistry.pageLimit, hlength, pageSize]
      omega
    obtain ⟨page, hread, hpage⟩ := contract.read_ok hj₁.registering.valid
      (validateRead_stream hstream hlimit.1 hlimit.2) loading.head
    rw [hread]
    have hhead : loading.head = n := hloaded.head
    rw [hhead] at hpage
    refine Fallible.ends_bind (Fallible.ends_lift ?_)
    rw [reject_of_not (not_lt.2 hpage.length_le)]
    cases page with
    | nil =>
      have hdrop : (contract.rows j₁ registry.stream).drop n = [] := by
        by_contra hne
        exact hpage.ne_nil hne rfl
      have hall : n = (contract.rows j₁ registry.stream).length := le_antisymm hn₁ (List.drop_eq_nil_iff.1 hdrop)
      exact ⟨loading.toSnapshot, rfl, hj₁, hall ▸ hloaded₁⟩
    | cons record page =>
      obtain ⟨next, habsorb, hnext, hseen'⟩ := absorbPage_eq_ok hdecode hregistered hpage.isPrefix hloaded₁ hseen
      have hlast : n + (record :: page).length ≤ (contract.rows j₁ registry.stream).length := by
        have hle := hpage.isPrefix.length_le
        rw [List.length_drop] at hle
        omega
      show Prog.Ends _ (Fallible.lift (registry.absorbPage codec loading (record :: page)) >>= fun next =>
        registry.loadPages codec rounds next).run _ j₁
      refine Fallible.ends_bind (Fallible.ends_lift ?_)
      rw [habsorb]
      have hends := ih hj₁.registering hlast (by rw [List.length_cons]; omega) hnext hseen'
      refine hends.mono ?_
      rintro r j' ⟨snapshot, rfl, hj', hsnapshot⟩
      exact ⟨snapshot, rfl, hj₁.trans hj', hsnapshot⟩

theorem ends_load (h : Registering contract codec registry j) :
    Prog.Ends (registrySetting contract codec registry) (registry.load codec).run
      (fun r j' => ∃ snapshot, r = .ok snapshot ∧ Reserving contract codec registry j j' ∧
        Loaded codec registry (contract.rows j' registry.stream) (contract.rows j' registry.stream).length snapshot) j :=
  ends_loadPages hdecode hstream h (Nat.zero_le _) (by omega) loaded_nil fun _ _ hid => nomatch hid

omit hstream hdecode in
theorem Loaded.none_iff {rows : List FactRecord} {snapshot : Snapshot}
    (h : Loaded codec registry rows rows.length snapshot) :
    snapshot.owners.lookup owner = none ↔ ∀ n, ¬registry.Reserves codec rows owner n := by
  rw [Option.eq_none_iff_forall_ne_some]
  constructor
  · intro hnone n hreserves
    exact hnone _ ((h.lookup owner _).2 ⟨n, hreserves.lt, hreserves, rfl⟩)
  · intro hfree reservation hsome
    obtain ⟨n, -, hreserves, -⟩ := (h.lookup owner reservation).1 hsome
    exact hfree n hreserves

variable (codec registry) in
/-- What a call is answered: the reservation of its owner, or an error if the owner
had none before. -/
def Answered (contract : P.Contract) (before : List FactRecord) (owner : InstanceOwner) :
    Except InstanceRegistryError InstanceReservation → J → Prop
  | .ok reservation, j => ∃ n, registry.Reserves codec (contract.rows j registry.stream) owner n ∧
      reservation = registry.reservation codec owner n
  | .error _, _ => ∀ n, ¬registry.Reserves codec before owner n

omit hstream hdecode in
theorem Answered.stable {before : List FactRecord} {r : Except InstanceRegistryError InstanceReservation}
    (h : Answered codec registry contract before owner r j) (hj : Reserving contract codec registry j j') :
    Answered codec registry contract before owner r j' := by
  cases r with
  | error error => exact h
  | ok reservation =>
    obtain ⟨n, hreserves, he⟩ := h
    exact ⟨n, hreserves.mono hj.grows, he⟩

/-- **The loop of `reserve`.**  An attempt answers what it finds, and ends with an
error only after a snapshot without the owner. -/
theorem ends_reserveWithin (hvalid : validateOwner owner = .ok ()) {before : List FactRecord} {attempts : ℕ}
    (h : Registering contract codec registry j) (hbefore : before <+: contract.rows j registry.stream)
    (hattempts : attempts = 0 → ∀ n, ¬registry.Reserves codec before owner n) :
    Prog.Ends (registrySetting contract codec registry) (registry.reserveWithin codec owner attempts).run
      (Answered codec registry contract before owner) j := by
  induction attempts generalizing j with
  | zero => exact hattempts rfl
  | succ attempts ih =>
    refine Fallible.ends_bind ((ends_load hdecode hstream h).mono ?_)
    rintro r j₁ ⟨snapshot, rfl, hj₁, hloaded⟩
    dsimp only
    cases hlookup : snapshot.owners.lookup owner with
    | some original =>
      obtain ⟨n, -, hreserves, rfl⟩ := (hloaded.lookup owner original).1 hlookup
      exact ⟨n, hreserves, rfl⟩
    | none =>
      have hfree : ∀ n, ¬registry.Reserves codec before owner n := fun n hreserves =>
        hloaded.none_iff.1 hlookup n (hreserves.mono (hbefore.trans hj₁.grows))
      refine Fallible.ends_bind (Fallible.ends_lift ?_)
      by_cases hcapacity : snapshot.owners.length ≥ registry.capacity
      · rw [reject_of hcapacity]
        exact hfree
      · rw [reject_of_not hcapacity]
        have hhead : snapshot.head < registry.capacity := by
          rw [hloaded.head, ← hloaded.length]
          exact not_le.1 hcapacity
        refine Fallible.ends_bind (Fallible.ends_attempt fun j₂ hj₂ => ?_)
        refine ⟨⟨rfl, hhead, owner, hvalid, rfl⟩, ?_⟩
        rintro answer j₃ hact
        cases answer with
        | ok records =>
          obtain ⟨hj₃, hreserves⟩ := append_reserves hj₂.registering hhead hvalid hact
          show Prog.Ends _ (registry.load codec >>= fun saved =>
            Fallible.lift (expect (saved.owners.lookup owner) _)).run _ j₃
          refine Fallible.ends_bind ((ends_load hdecode hstream hj₃.registering).mono ?_)
          rintro r j₄ ⟨saved, rfl, hj₄, hsaved⟩
          have hstill := hreserves.mono hj₄.grows
          have hfound := (hsaved.lookup owner _).2 ⟨snapshot.head, hstill.lt, hstill, rfl⟩
          refine Fallible.ends_lift ?_
          rw [hfound]
          exact ⟨snapshot.head, hstill, rfl⟩
        | error error =>
          obtain rfl := contract.append_error hj₂.registering.valid hact
          show Prog.Ends _ (ite _ _ _ : RegistryProg InstanceReservation).run _ j₃
          split_ifs
          · refine Fallible.ends_bind ((ends_load hdecode hstream hj₂.registering).mono ?_)
            rintro r j₄ ⟨current, rfl, hj₄, -⟩
            dsimp only
            split_ifs
            · exact hfree
            · exact ih hj₄.registering (hbefore.trans (hj₁.trans (hj₂.trans hj₄)).grows) fun _ => hfree
          · exact hfree

/-- **`reserve` ends**, with the reservation of its owner unless the owner had none
when it began. -/
theorem ends_reserve (h : Registering contract codec registry j) (owner : InstanceOwner) :
    Prog.Ends (registrySetting contract codec registry) (registry.reserve codec owner).run
      (Answered codec registry contract (contract.rows j registry.stream) owner) j := by
  refine Fallible.ends_bind (Fallible.ends_lift ?_)
  cases hvalid : validateOwner owner with
  | error error =>
    intro n hreserves
    obtain ⟨other, hother, hrecord⟩ := h.registered.reserved n _ hreserves
    rw [owner_of_record hdecode hrecord, hother] at hvalid
    exact nomatch hvalid
  | ok u => exact ends_reserveWithin hdecode hstream hvalid h List.prefix_rfl fun h0 => nomatch h0

end Reading

end Calls

section Pools

variable {J : Type} {P : FactJournal J} (contract : P.Contract) (codec : RegistryCodec) (registry : InstanceRegistry)

/-- A call of `reserve`, and the reservations there were when it was made. -/
structure ReserveCall where
  owner : InstanceOwner
  before : List FactRecord

/-- Calls of `reserve` on a journal where others append to other streams. -/
def registryRules : Pool.Rules JournalOp JournalOp.Answer J ReserveCall
    (Except InstanceRegistryError InstanceReservation) where
  program call := (registry.reserve codec call.owner).run
  starts j call := call.before = contract.rows j registry.stream
  act _ j o a j' := performFact P j o = (a, j')
  other j j' := contract.Valid j' ∧ contract.rows j' registry.stream = contract.rows j registry.stream

/-- A journal without reservations. -/
def Unreserved (j : J) : Prop := contract.Valid j ∧ contract.rows j registry.stream = []

/-- What the calls and the journal of a pool have come to. -/
abbrev RegistryPool (J : Type) := Pool JournalOp JournalOp.Answer J ReserveCall
  (Except InstanceRegistryError InstanceReservation)

variable {contract codec registry}

theorem Registering.unreserved {j : J} (h : Unreserved contract registry j) : Registering contract codec registry j where
  valid := h.1
  registered := by
    rw [h.2]
    exact ⟨Nat.zero_le _, fun n record hrecord => by simp at hrecord, fun n m owner hn => by simp at hn⟩

theorem Reserving.others {j j' : J} (h : Registering contract codec registry j)
    (hj : (registryRules contract codec registry).other j j') : Reserving contract codec registry j j' where
  registering := ⟨hj.1, hj.2 ▸ h.registered⟩
  grows := hj.2 ▸ List.prefix_rfl

theorem identity_stream (hdigest : ∀ text, isHexDigest (codec.sha256Text text) = true) {hostNamespace : String}
    {capacity : ℕ} (hnew : InstanceRegistry.new codec hostNamespace capacity = .ok registry) :
    Facts.identity registry.stream = .ok () := by
  simp only [InstanceRegistry.new, bind_eq_ok, pure_eq_ok] at hnew
  obtain ⟨-, -, -, -, rfl⟩ := hnew
  have hsize : (codec.sha256Text hostNamespace).utf8ByteSize = 64 := by
    have hhex := hdigest hostNamespace
    simp only [isHexDigest, Bool.and_eq_true, decide_eq_true_eq] at hhex
    exact hhex.1
  refine reject_of_not (not_or.2 ⟨?_, ?_⟩)
  · simp only [trimEmpty, String.toList_append, List.all_append, Bool.and_eq_true, not_and]
    intro hblank
    exact absurd hblank (by decide)
  · rw [String.utf8ByteSize_append, hsize, maxFactIdBytes]
    decide

section Invariant

variable (hdecode : ∀ reserved : Reserved, codec.decodeReserved reserved.toValue = .ok reserved)
  (hstream : Facts.identity registry.stream = .ok ())

include hdecode hstream

/-- **Every call is on its way to its answer**, however the operations mix. -/
theorem registry_keeps : Pool.Keeps (registryRules contract codec registry)
    (fun _ => Registering contract codec registry)
    (fun _ call p => Prog.Ends (registrySetting contract codec registry) p
      (Answered codec registry contract call.before call.owner)) := by
  have hinterfere : ∀ {call : ReserveCall} {p} {j j' : J},
      Prog.Ends (registrySetting contract codec registry) p
        (Answered codec registry contract call.before call.owner) j → Reserving contract codec registry j j' →
          Prog.Ends (registrySetting contract codec registry) p
            (Answered codec registry contract call.before call.owner) j' := by
    intro call p j j' h hj
    exact h.interfere (fun _ _ _ => Reserving.trans) (fun _ _ _ => Answered.stable) hj
  constructor
  case starts =>
    intro n call j hj hstarts
    rw [hstarts]
    exact ⟨hj, ends_reserve hdecode hstream hj call.owner⟩
  case own =>
    intro n i call o next a j j' hj _ h hact
    obtain ⟨hallow, hnext⟩ := h j (.refl hj)
    exact ⟨(Reserving.perform hj hallow hact).registering, hnext a j' hact⟩
  case harmless =>
    intro n i k call other o next p a j j' hik hj h hact hp
    obtain ⟨hallow, -⟩ := h j (.refl hj)
    exact hinterfere hp (Reserving.perform hj hallow hact)
  case other =>
    intro n j j' hj hother
    have hreserving := Reserving.others hj hother
    exact ⟨hreserving.registering, fun _ _ _ h => hinterfere h hreserving⟩

omit hdecode hstream in
theorem ends_alone {α : Type} {p : Prog JournalOp JournalOp.Answer α} {Q : α → J → Prop} {j : J}
    (h : Prog.Ends (registrySetting contract codec registry) p Q j) (hj : Registering contract codec registry j) :
    ∃ a j', p.run (performFact P) j = some (a, j') ∧ Q a j' ∧ Reserving contract codec registry j j' := by
  have hrefl : ∀ t, Reserving contract codec registry j t → (registrySetting contract codec registry).rely t t :=
    fun t ht => Reserving.refl ht.registering
  refine h.runs hrefl (fun t o ht hallow => ⟨rfl, ht.trans ?_⟩) (Reserving.refl hj)
  exact Reserving.perform ht.registering hallow rfl

end Invariant

/-- **Instance reservation is a stable injection.**  Calls of one owner that
succeed are answered the same, calls of different owners different instances; the
reservations stay within the capacity; a call whose owner had a reservation when it
was made is answered without an error, and no call halts; the journal is read back,
and an owner that has a reservation is given it. -/
theorem instances_reserved_once
    (hdecode : ∀ reserved : Reserved, codec.decodeReserved reserved.toValue = .ok reserved)
    (hdigest : ∀ text, isHexDigest (codec.sha256Text text) = true) {hostNamespace : String} {capacity : ℕ}
    (hnew : InstanceRegistry.new codec hostNamespace capacity = .ok registry) {pool : RegistryPool J}
    (h : Pool.Reach (registryRules contract codec registry) (Unreserved contract registry) pool) :
    (∀ (i k : ℕ) (c d : ReserveCall) (r r' : InstanceReservation), pool.calls[i]? = some (c, .done (.ok r)) →
      pool.calls[k]? = some (d, .done (.ok r')) →
        (c.owner = d.owner → r = r') ∧ (c.owner ≠ d.owner → r.instanceId ≠ r'.instanceId)) ∧
    (contract.rows pool.world registry.stream).length ≤ capacity ∧
    (∀ (i : ℕ) (c : ReserveCall), pool.calls[i]? ≠ some (c, .halt) ∧
      ∀ r, pool.calls[i]? = some (c, .done r) → (∃ n, registry.Reserves codec c.before c.owner n) →
        ∃ reservation, r = .ok reservation) ∧
    (∃ snapshot j', (registry.load codec).run.run (performFact P) pool.world = some (.ok snapshot, j')) ∧
    ∀ owner n, registry.Reserves codec (contract.rows pool.world registry.stream) owner n →
      ∃ j', (registry.reserve codec owner).run.run (performFact P) pool.world =
        some (.ok (registry.reservation codec owner n), j') := by
  have hstream := identity_stream hdigest hnew
  have hinvariant := h.invariant (registry_keeps hdecode hstream) fun _ hs => .unreserved hs
  have hrows := hinvariant.world.registered
  have hcapacity : registry.capacity = capacity := by
    simp only [InstanceRegistry.new, bind_eq_ok, pure_eq_ok] at hnew
    obtain ⟨-, -, -, -, rfl⟩ := hnew
    rfl
  have hunique : ∀ {n m owner}, registry.Reserves codec (contract.rows pool.world registry.stream) owner n →
      registry.Reserves codec (contract.rows pool.world registry.stream) owner m → n = m := fun hn hm =>
    hrows.owners _ _ _ hn hm
  refine ⟨fun i k c d r r' hi hk => ?_, hcapacity ▸ hrows.length_le, fun i c => ⟨fun hi => ?_, fun r hi hbefore => ?_⟩,
    ?_, fun owner n hreserves => ?_⟩
  · obtain ⟨n, hn, rfl⟩ := hinvariant.calls i c _ hi
    obtain ⟨m, hm, rfl⟩ := hinvariant.calls k d _ hk
    constructor
    · intro he
      rw [he] at hn
      rw [he, hunique hn hm]
    · intro hne he
      have hsame := instanceId_inj.1 he
      rw [Nat.succ.inj hsame] at hn
      exact hne (owner_of_record hdecode (Option.some.inj (hn.symm.trans hm)))
  · exact (hinvariant.calls i c _ hi).elim
  · have hanswered := hinvariant.calls i c _ hi
    cases r with
    | ok reservation => exact ⟨reservation, rfl⟩
    | error error =>
      obtain ⟨n, hn⟩ := hbefore
      exact absurd hn (hanswered n)
  · obtain ⟨r, j', hrun, ⟨snapshot, rfl, -⟩, -⟩ :=
      ends_alone (ends_load hdecode hstream hinvariant.world) hinvariant.world
    exact ⟨snapshot, j', hrun⟩
  · obtain ⟨r, j', hrun, hanswered, hj'⟩ :=
      ends_alone (ends_reserve hdecode hstream hinvariant.world owner) hinvariant.world
    cases r with
    | error error => exact absurd hreserves (hanswered n)
    | ok reservation =>
      obtain ⟨m, hm, rfl⟩ := hanswered
      obtain rfl := hj'.registering.registered.owners _ _ _ hm (hreserves.mono hj'.grows)
      exact ⟨j', hrun⟩

end Pools

section Examples

def readReserved : Value → Except String Reserved
  | .object [("host_namespace", .string hostNamespace), ("instance_id", .string instanceId),
      ("owner", .object [("invocation_id", .string invocationId), ("logical_session_id", .string logicalSessionId),
        ("task_id", .string taskId)])] => .ok ⟨hostNamespace, ⟨logicalSessionId, taskId, invocationId⟩, instanceId⟩
  | _ => .error "invalid reservation"

def firstOwner : InstanceOwner := ⟨"session", "task", "first"⟩

def secondOwner : InstanceOwner := ⟨"session", "task", "second"⟩

def sampleCodec : RegistryCodec where
  sha256Text _ := String.ofList (List.replicate 64 '0')
  sha256 value := String.ofList (List.replicate 64 (if value = firstOwner.toValue then 'a' else 'b'))
  decodeReserved := readReserved

def sampleRegistry : InstanceRegistry where
  hostNamespace := "host"
  namespaceDigest := String.ofList (List.replicate 64 '0')
  stream := "agent-instances:" ++ String.ofList (List.replicate 64 '0')
  capacity := 2

def reserveAll (pool : RegistryPool MemoryState) : List InstanceOwner → Option (RegistryPool MemoryState)
  | [] => some pool
  | owner :: owners => do
      let (r, world) ← (sampleRegistry.reserve sampleCodec owner).run.run (performFact memoryJournal) pool.world
      reserveAll ⟨world, pool.calls ++ [(⟨owner, pool.world.rows sampleRegistry.stream⟩, .done r)]⟩ owners

def answer? : ReserveCall × Prog JournalOp JournalOp.Answer (Except InstanceRegistryError InstanceReservation) →
    Option (Except InstanceRegistryError InstanceReservation)
  | (_, .done r) => some r
  | _ => none

theorem reach_reserveAll {owners : List InstanceOwner} {pool last : RegistryPool MemoryState}
    (h : Pool.Reach (registryRules memoryContract sampleCodec sampleRegistry)
      (Unreserved memoryContract sampleRegistry) pool) (hlast : reserveAll pool owners = some last) :
    Pool.Reach (registryRules memoryContract sampleCodec sampleRegistry)
      (Unreserved memoryContract sampleRegistry) last := by
  induction owners generalizing pool with
  | nil => exact Option.some.inj hlast ▸ h
  | cons owner owners ih =>
    obtain ⟨⟨r, world⟩, hrun, hlast⟩ := Option.bind_eq_some_iff.1 hlast
    have hstarts : (registryRules memoryContract sampleCodec sampleRegistry).starts pool.world
        ⟨owner, pool.world.rows sampleRegistry.stream⟩ := rfl
    have hact : ∀ (i : ℕ) (s : MemoryState) (o : JournalOp),
        (registryRules memoryContract sampleCodec sampleRegistry).act i s o (performFact memoryJournal s o).1
          (performFact memoryJournal s o).2 := fun _ _ _ => rfl
    have hcalled := h.call_alone hact hstarts hrun
    exact ih hcalled hlast

theorem sampleCodec_decode (reserved : Reserved) : sampleCodec.decodeReserved reserved.toValue = .ok reserved := by
  obtain ⟨hostNamespace, ⟨logicalSessionId, taskId, invocationId⟩, instanceId⟩ := reserved
  -- The order of the keys, which the map is sorted by.
  have h₁ : ("host_namespace" : String) ≤ "owner" := by decide +kernel
  have h₂ : ("host_namespace" : String) ≤ "instance_id" := by decide +kernel
  have h₃ : ¬("owner" : String) ≤ "instance_id" := by decide +kernel
  have h₄ : ¬("logical_session_id" : String) ≤ "invocation_id" := by decide +kernel
  have h₅ : ("logical_session_id" : String) ≤ "task_id" := by decide +kernel
  have h₆ : ¬("task_id" : String) ≤ "invocation_id" := by decide +kernel
  have hpayload : Reserved.toValue ⟨hostNamespace, ⟨logicalSessionId, taskId, invocationId⟩, instanceId⟩ =
      .object [("host_namespace", .string hostNamespace), ("instance_id", .string instanceId),
        ("owner", .object [("invocation_id", .string invocationId), ("logical_session_id", .string logicalSessionId),
          ("task_id", .string taskId)])] := by
    simp only [Reserved.toValue, InstanceOwner.toValue, Value.canonical, Value.canonicalFields,
      List.insertionSort_cons, List.insertionSort_nil, List.orderedInsert_cons, List.orderedInsert_nil, h₁, h₂, h₃, h₄,
      h₅, h₆, if_true, if_false]
  rw [hpayload]
  rfl

theorem instances_reserved_once_sample : ∃ pool : RegistryPool MemoryState,
    Pool.Reach (registryRules memoryContract sampleCodec sampleRegistry) (Unreserved memoryContract sampleRegistry) pool ∧
      pool.calls.map answer? = [some (.ok (sampleRegistry.reservation sampleCodec firstOwner 0)),
        some (.ok (sampleRegistry.reservation sampleCodec secondOwner 1)),
        some (.ok (sampleRegistry.reservation sampleCodec firstOwner 0))] ∧
      (pool.world.rows sampleRegistry.stream).length ≤ 2 := by
  have hran : ((reserveAll ⟨MemoryState.empty, []⟩ [firstOwner, secondOwner, firstOwner]).map fun pool =>
      pool.calls.map answer?) = some [some (.ok (sampleRegistry.reservation sampleCodec firstOwner 0)),
        some (.ok (sampleRegistry.reservation sampleCodec secondOwner 1)),
        some (.ok (sampleRegistry.reservation sampleCodec firstOwner 0))] := by decide +kernel
  obtain ⟨pool, hpool, hanswers⟩ := Option.map_eq_some_iff.1 hran
  have hunreserved : Unreserved memoryContract sampleRegistry MemoryState.empty :=
    ⟨MemoryState.valid_empty, by simp [memoryContract, MemoryState.rows, MemoryState.empty]⟩
  have hreach := reach_reserveAll (.initial hunreserved) hpool
  have hdigest : ∀ text, isHexDigest (sampleCodec.sha256Text text) = true := fun _ => by
    show isHexDigest (String.ofList (List.replicate 64 '0')) = true
    decide +kernel
  have hnew : InstanceRegistry.new sampleCodec "host" 2 = .ok sampleRegistry := by decide +kernel
  exact ⟨pool, hreach, hanswers, (instances_reserved_once sampleCodec_decode hdigest hnew hreach).2.1⟩

end Examples

end Instances
end Kolyan
