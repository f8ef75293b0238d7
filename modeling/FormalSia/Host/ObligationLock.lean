/-
  FormalSia.Host.ObligationLock — concurrent `managedPayByContract` calls under the storage
  obligation lock.

  Every call is a thread whose program counter stands between two steps of the handler at
  which another call may run: read the request, take the contract's obligation lock
  (`managedLockStorageObligation`), load the obligation, its recent revision and the block
  height, build the payment revision, verify it against that height and co-sign it at the
  height `createRevisionSignature` reads again from `h.blockHeight`, write the obligation
  (`managedModifyStorageObligation`), send the response, and run the deferred
  `managedUnlockStorageObligation`.  The host is shared.  A schedule is any list of thread
  steps and block-height changes, folded by `run`; a thread that waits for a held lock does
  not move.  A panicking call is let run on to its unlock, which only adds runs.

  The lock is outside the sources; it is modelled from the spec (one exclusive lock per
  contract, held for the whole exchange) as a map from contract ids to the thread holding
  the lock.  Each write of an obligation is recorded in a ghost log with the revision the
  payment was verified against.

  Main results:
    * `run_payByContract_serialized` — over every schedule of every set of calls: at most
      one call holds a contract's lock; a call that loaded or co-signed a revision holds the
      one still stored; every written revision was verified against the one written before
      it, the first against the initial one; the stored revision numbers strictly increase.
    * `run_serial_managedPayByContract` — a serial schedule, each call running alone from
      its start to its end, does what the sequential handler does, call after call.
    * `run_payByContract_finishes` — no deadlock: from every reachable state, the calls
      holding or waiting for locks can all run to their end, at most seven steps a call,
      which frees every lock.  A waiting call's lock holder never blocks, and every step
      that moves a call lowers its `Pc.rank`.
    * `runnable_sched_payByContract_finishes` — every run ends: a scheduler that only picks
      runnable calls, as Go's does, takes at most seven steps a call, and where it can pick
      none, every call has returned and every lock is free.
    * `run_swap_comm` — no cross-contract ordering: swapping two adjacent steps of calls on
      different contracts anywhere in a schedule changes neither the host, nor the locks, nor
      any call.  A step reads and writes only its call and its contract's lock and obligation
      (`stepThread_frame`, `stepThread_local`).
-/
import FormalSia.Host.PaymentProofs
import Mathlib.Algebra.Order.BigOperators.Group.List
import Mathlib.Algebra.Order.Ring.Nat

namespace FormalSia.Host.ObligationLock

open FormalSia.Host

/-! ## §1. Threads and the shared state -/

/-- Where a `managedPayByContract` call stands: before the step its constructor names. -/
inductive Pc where
  /-- `RPCRead` of the `PayByContractRequest`. -/
  | start
  /-- `managedLockStorageObligation(fcid)`. -/
  | lockWait (pbcr : PayByContractRequest)
  /-- `managedGetStorageObligation`, `BlockHeight` and `recentRevision`. -/
  | locked (pbcr : PayByContractRequest)
  /-- `revisionFromRequest`, `verifyPayByContractRevision` against the height `bh` read under
      the lock, and `createRevisionSignature` at the host's block height read again then. -/
  | loaded (pbcr : PayByContractRequest) (so : StorageObligation)
      (currentRevision : FileContractRevision) (bh : BlockHeight)
  /-- `managedModifyStorageObligation`. -/
  | signed (pbcr : PayByContractRequest) (so : StorageObligation)
      (currentRevision : FileContractRevision) (sp : SignedPayment)
  /-- `RPCWrite` of the `PayByContractResponse`. -/
  | written (pbcr : PayByContractRequest) (sp : SignedPayment)
  /-- The deferred `managedUnlockStorageObligation(fcid)`. -/
  | returning (pbcr : PayByContractRequest) (result : Except Fault PaymentDetails)
  /-- Returned. -/
  | finished (result : Except Fault PaymentDetails)

/-- The contract whose obligation lock a call holds at this point. -/
def Pc.holds : Pc → Option Hash
  | .locked pbcr | .loaded pbcr .. | .signed pbcr .. | .written pbcr _ | .returning pbcr _ =>
    some pbcr.contractID
  | .start | .lockWait _ | .finished _ => none

/-- A call: its program counter and its stream. -/
structure Thread where
  pc : Pc
  stream : Stream

/-- A write of an obligation by a payment, with the revision the payment was verified
    against (ghost). -/
structure Write where
  contract : Hash
  base : FileContractRevision
  revision : FileContractRevision
  deriving DecidableEq, Repr

/-- The host, the obligation locks, the calls, and the ghost log of obligation writes. -/
structure State (Accounts T : Type) where
  host : HostState Accounts
  locks : Hash → Option T
  threads : T → Thread
  log : List Write

/-- A scheduling event: a step of one call, or the consensus moving the block height. -/
inductive Event (T : Type) where
  | act (t : T)
  | setBlockHeight (bh : BlockHeight)

variable {Accounts T : Type} [DecidableEq T]

/-- Every call at its start, over stream `streams t`; no lock held, nothing written. -/
def initial (h : HostState Accounts) (streams : T → Stream) : State Accounts T :=
  { host := h, locks := fun _ => none, threads := fun t => ⟨.start, streams t⟩, log := [] }

/-- Replace one call. -/
def State.setThread (s : State Accounts T) (t : T) (th : Thread) : State Accounts T :=
  { s with threads := Function.update s.threads t th }

@[simp] theorem State.setThread_host (s : State Accounts T) (t : T) (th : Thread) :
    (s.setThread t th).host = s.host := rfl

@[simp] theorem State.setThread_locks (s : State Accounts T) (t : T) (th : Thread) :
    (s.setThread t th).locks = s.locks := rfl

@[simp] theorem State.setThread_log (s : State Accounts T) (t : T) (th : Thread) :
    (s.setThread t th).log = s.log := rfl

@[simp] theorem State.setThread_threads (s : State Accounts T) (t t' : T) (th : Thread) :
    (s.setThread t th).threads t' = if t' = t then th else s.threads t' :=
  Function.update_apply _ _ _ _

/-! ## §2. The steps -/

variable (env : Collaborators Accounts)

/-- One step of call `t`, as `managedPayByContract` runs it. -/
def stepThread (s : State Accounts T) (t : T) : State Accounts T :=
  let th := s.threads t
  match th.pc with
  | .start =>
    match th.stream.rpcRead Message.asPayByContractRequest with
    | .error e =>
      s.setThread t
        ⟨.finished (.error (.error (e.addContext "Could not read PayByContractRequest"))),
          th.stream⟩
    | .ok (pbcr, stream) => s.setThread t ⟨.lockWait pbcr, stream⟩
  | .lockWait pbcr =>
    match s.locks pbcr.contractID with
    | none =>
      { s.setThread t ⟨.locked pbcr, th.stream⟩ with
        locks := Function.update s.locks pbcr.contractID (some t) }
    | some _ => s
  | .locked pbcr =>
    match loadRevision s.host pbcr.contractID with
    | .error e => s.setThread t ⟨.returning pbcr (.error (.error e)), th.stream⟩
    | .ok (so, currentRevision) =>
      s.setThread t ⟨.loaded pbcr so currentRevision s.host.blockHeight, th.stream⟩
  | .loaded pbcr so currentRevision bh =>
    match signPaymentAt env currentRevision pbcr bh s.host.blockHeight with
    | .error f => s.setThread t ⟨.returning pbcr (.error f), th.stream⟩
    | .ok sp => s.setThread t ⟨.signed pbcr so currentRevision sp, th.stream⟩
  | .signed pbcr so currentRevision sp =>
    match env.modifyStorageObligation (sp.obligation so) with
    | some e =>
      s.setThread t
        ⟨.returning pbcr (.error (.error (e.addContext "Could not modify storage obligation"))),
          th.stream⟩
    | none =>
      { s.setThread t ⟨.written pbcr sp, th.stream⟩ with
        host := s.host.withObligation pbcr.contractID (sp.obligation so)
        log := s.log ++ [⟨pbcr.contractID, currentRevision, sp.revision⟩] }
  | .written pbcr sp =>
    match th.stream.rpcWrite
        (.payByContractResponse ⟨signatureBytes sp.hostSignature.signature⟩) with
    | .error e =>
      s.setThread t
        ⟨.returning pbcr (.error (.error (e.addContext "Could not send PayByContractResponse"))),
          th.stream⟩
    | .ok stream =>
      s.setThread t ⟨.returning pbcr (.ok (newPaymentDetails "" sp.amount sp.collateral)), stream⟩
  | .returning pbcr result =>
    { s.setThread t ⟨.finished result, th.stream⟩ with
      locks := Function.update s.locks pbcr.contractID none }
  | .finished _ => s

/-- One scheduling event. -/
def step (s : State Accounts T) : Event T → State Accounts T
  | .act t => stepThread env s t
  | .setBlockHeight bh => { s with host := { s.host with blockHeight := bh } }

/-- A schedule. -/
def run (s : State Accounts T) (sched : List (Event T)) : State Accounts T :=
  sched.foldl (step env) s

@[simp] theorem run_nil (s : State Accounts T) : run env s [] = s := rfl

@[simp] theorem run_cons (s : State Accounts T) (e : Event T) (sched : List (Event T)) :
    run env s (e :: sched) = run env (step env s e) sched := rfl

/-! ## §3. Revision histories -/

/-- The recent revision of a stored obligation, if there is one. -/
def storedRevision (o : Option StorageObligation) : Option FileContractRevision :=
  o.bind fun so => so.recentRevision.toOption

/-- The writes of the obligation of contract `c`, in order. -/
def writesTo (c : Hash) (log : List Write) : List Write := log.filter (·.contract = c)

/-- Each write was verified against the revision written before it, the first one against
    `r`. -/
def Chained : FileContractRevision → List Write → Prop
  | _, [] => True
  | r, w :: ws => w.base = r ∧ Chained w.revision ws

/-- The last revision written, `r` if none was. -/
def latest (r : FileContractRevision) (ws : List Write) : FileContractRevision :=
  ws.foldl (fun _ w => w.revision) r

theorem latest_append_singleton (r : FileContractRevision) (ws : List Write) (w : Write) :
    latest r (ws ++ [w]) = w.revision := List.foldl_append _ _ _ _

theorem chained_append_singleton {r : FileContractRevision} {ws : List Write} {w : Write}
    (h : Chained r ws) (hw : w.base = latest r ws) : Chained r (ws ++ [w]) := by
  induction ws generalizing r with
  | nil => exact ⟨hw, trivial⟩
  | cons x xs ih => exact ⟨h.1, ih h.2 hw⟩

/-- Along a chained history whose every write raises the revision number, the stored
    revision numbers strictly increase. -/
theorem chain_revisionNumbers {r : FileContractRevision} {ws : List Write} (h : Chained r ws)
    (hinc : ∀ w ∈ ws, w.base.newRevisionNumber < w.revision.newRevisionNumber) :
    List.Chain (· < ·) r.newRevisionNumber (ws.map (·.revision.newRevisionNumber)) := by
  induction ws generalizing r with
  | nil => exact .nil
  | cons w ws ih =>
    obtain ⟨rfl, hws⟩ := h
    exact .cons (hinc w (.head _)) (ih hws fun x hx => hinc x (.tail _ hx))

theorem writesTo_append_singleton (c : Hash) (log : List Write) (w : Write) :
    writesTo c (log ++ [w]) = if w.contract = c then writesTo c log ++ [w] else writesTo c log :=
  by unfold writesTo; split <;> simp [*]

@[simp] theorem recentRevision_obligation (sp : SignedPayment) (so : StorageObligation) :
    (sp.obligation so).recentRevision = .ok sp.revision := rfl

/-! ## §4. The invariant -/

/-- What a call's program counter knows of the host: a loaded or co-signed call holds the
    obligation still stored and its recent revision, and a co-signed revision raises the
    revision number. -/
def Fresh (h : HostState Accounts) : Pc → Prop
  | .loaded pbcr so currentRevision _ =>
    h.obligations pbcr.contractID = some so ∧ so.recentRevision = .ok currentRevision
  | .signed pbcr so currentRevision sp =>
    h.obligations pbcr.contractID = some so ∧ so.recentRevision = .ok currentRevision ∧
      currentRevision.newRevisionNumber < sp.revision.newRevisionNumber
  | _ => True

/-- The history of contract `c` from the initial obligations `h0`: nothing written and the
    obligation as it was, or the writes chained from the initial recent revision and the
    stored revision the last one written. -/
def History (h0 : Hash → Option StorageObligation) (h : HostState Accounts) (log : List Write)
    (c : Hash) : Prop :=
  (writesTo c log = [] ∧ h.obligations c = h0 c) ∨
  ∃ r0, storedRevision (h0 c) = some r0 ∧ Chained r0 (writesTo c log) ∧
    storedRevision (h.obligations c) = some (latest r0 (writesTo c log))

/-- The invariant of every reachable state. -/
structure Inv (h0 : Hash → Option StorageObligation) (s : State Accounts T) : Prop where
  lock_iff : ∀ c t, s.locks c = some t ↔ (s.threads t).pc.holds = some c
  fresh : ∀ t, Fresh s.host (s.threads t).pc
  log_increases : ∀ w ∈ s.log, w.base.newRevisionNumber < w.revision.newRevisionNumber
  history : ∀ c, History h0 s.host s.log c

variable {env} {h0 : Hash → Option StorageObligation} {s : State Accounts T}

omit [DecidableEq T] in
theorem inv_initial (h : HostState Accounts) (streams : T → Stream) :
    Inv h.obligations (initial h streams) where
  lock_iff c t := by simp [initial, Pc.holds]
  fresh t := trivial
  log_increases := by simp [initial]
  history c := .inl ⟨rfl, rfl⟩

/-- A step of one call that keeps the lock it holds and touches nothing shared. -/
theorem Inv.setThread (hi : Inv h0 s) {t : T} {th : Thread}
    (hholds : th.pc.holds = (s.threads t).pc.holds) (hfresh : Fresh s.host th.pc) :
    Inv h0 (s.setThread t th) where
  lock_iff c t' := by
    by_cases ht : t' = t
    · subst ht; simpa [hholds] using hi.lock_iff c t'
    · simpa [ht] using hi.lock_iff c t'
  fresh t' := by
    by_cases ht : t' = t
    · simpa [ht] using hfresh
    · simpa [ht] using hi.fresh t'
  log_increases := hi.log_increases
  history := hi.history

/-- The lock table stays exact when call `t` moves to `th` and the lock of `c0` is set to
    `v`: `v` names exactly the new holder of `c0`, `t` keeps every other lock it held, and
    no other call holds `c0`. -/
theorem lock_iff_update (hi : Inv h0 s) {t : T} {th : Thread} {c0 : Hash} {v : Option T}
    (hv : ∀ t', v = some t' ↔ t' = t ∧ th.pc.holds = some c0)
    (ho : ∀ c, c ≠ c0 → (th.pc.holds = some c ↔ (s.threads t).pc.holds = some c))
    (hc0 : ∀ t', t' ≠ t → (s.threads t').pc.holds ≠ some c0) (c : Hash) (t' : T) :
    Function.update s.locks c0 v c = some t' ↔ ((s.setThread t th).threads t').pc.holds = some c := by
  by_cases hc : c = c0
  · subst hc
    by_cases ht : t' = t
    · simp [hv, ht]
    · simp [hv, ht, hc0 t' ht]
  · by_cases ht : t' = t
    · subst ht; simp [hc, hi.lock_iff, ho c hc]
    · simp [hc, ht, hi.lock_iff]

/-- Taking a free lock. -/
theorem Inv.acquire (hi : Inv h0 s) {t : T} {pbcr : PayByContractRequest} {stream : Stream}
    (hpc : (s.threads t).pc = .lockWait pbcr) (hfree : s.locks pbcr.contractID = none) :
    Inv h0 { s.setThread t ⟨.locked pbcr, stream⟩ with
      locks := Function.update s.locks pbcr.contractID (some t) } where
  lock_iff := lock_iff_update hi (by simp [Pc.holds, eq_comm])
    (fun c hc => by simp [Pc.holds, hpc, Ne.symm hc])
    (fun t' _ h => by simp [← hi.lock_iff, hfree] at h)
  fresh t' := by
    by_cases ht : t' = t
    · simp [ht, Fresh]
    · simpa [ht] using hi.fresh t'
  log_increases := hi.log_increases
  history := hi.history

/-- Releasing the lock on return. -/
theorem Inv.release (hi : Inv h0 s) {t : T} {pbcr : PayByContractRequest}
    {result : Except Fault PaymentDetails} {stream : Stream}
    (hpc : (s.threads t).pc = .returning pbcr result) :
    Inv h0 { s.setThread t ⟨.finished result, stream⟩ with
      locks := Function.update s.locks pbcr.contractID none } where
  lock_iff := lock_iff_update hi (by simp [Pc.holds])
    (fun c hc => by simp [Pc.holds, hpc, Ne.symm hc])
    (fun t' ht h => ht (Option.some.inj (((hi.lock_iff _ t').mpr h).symm.trans
      ((hi.lock_iff _ t).mpr (by rw [hpc]; rfl)))))
  fresh t' := by
    by_cases ht : t' = t
    · simp [ht, Fresh]
    · simpa [ht] using hi.fresh t'
  log_increases := hi.log_increases
  history := hi.history

/-- A write leaves every other contract's obligation, and so what other calls know of it. -/
theorem fresh_withObligation {h : HostState Accounts} {pc : Pc} {c : Hash}
    {so : StorageObligation} (hc : pc.holds ≠ some c) (hf : Fresh h pc) :
    Fresh (h.withObligation c so) pc := by
  cases pc <;> simp_all [Fresh, Pc.holds, HostState.withObligation, Function.update_apply]

/-- A write to another contract leaves a history as it was. -/
theorem History.write_of_ne {h : HostState Accounts} {log : List Write} {c c' : Hash}
    {so : StorageObligation} {base rev : FileContractRevision} (hc : c ≠ c')
    (hh : History h0 h log c') :
    History h0 (h.withObligation c so) (log ++ [⟨c, base, rev⟩]) c' := by
  simpa [History, writesTo_append_singleton, hc, HostState.withObligation,
    Function.update_apply, Ne.symm hc] using hh

/-- A write of a revision verified against the stored one extends the history by it. -/
theorem History.write {h : HostState Accounts} {log : List Write} {c : Hash}
    {so : StorageObligation} {sp : SignedPayment} {cur : FileContractRevision}
    (hh : History h0 h log c) (hso : h.obligations c = some so)
    (hcur : so.recentRevision = .ok cur) :
    History h0 (h.withObligation c (sp.obligation so)) (log ++ [⟨c, cur, sp.revision⟩]) c := by
  have hstored : storedRevision (h.obligations c) = some cur := by
    simp [storedRevision, hso, hcur, Except.toOption]
  have hnew : storedRevision ((h.withObligation c (sp.obligation so)).obligations c) =
      some sp.revision := by
    simp [storedRevision, HostState.withObligation, Except.toOption]
  right
  simp only [writesTo_append_singleton, if_pos, latest_append_singleton, hnew]
  rcases hh with ⟨hws, hh0⟩ | ⟨r0, hr0, hch, hst⟩
  · rw [hws]
    exact ⟨cur, hh0 ▸ hstored, ⟨rfl, trivial⟩, trivial⟩
  · rw [hstored, Option.some.injEq] at hst
    exact ⟨r0, hr0, chained_append_singleton hch hst, trivial⟩

/-- Writing the co-signed payment's obligation. -/
theorem Inv.write (hi : Inv h0 s) {t : T} {pbcr : PayByContractRequest}
    {so : StorageObligation} {cur : FileContractRevision} {sp : SignedPayment}
    {stream : Stream} (hpc : (s.threads t).pc = .signed pbcr so cur sp) :
    Inv h0 { s.setThread t ⟨.written pbcr sp, stream⟩ with
      host := s.host.withObligation pbcr.contractID (sp.obligation so)
      log := s.log ++ [⟨pbcr.contractID, cur, sp.revision⟩] } := by
  have hf := hi.fresh t
  rw [hpc] at hf
  obtain ⟨hso, hcur, hinc⟩ := hf
  have hheld := (hi.lock_iff pbcr.contractID t).mpr (by rw [hpc]; rfl)
  have hlocks : Inv h0 (s.setThread t ⟨.written pbcr sp, stream⟩) :=
    hi.setThread (by rw [hpc]; rfl) trivial
  refine ⟨hlocks.lock_iff, fun t' => ?_, ?_, fun c => ?_⟩
  · by_cases ht : t' = t
    · simp [ht, Fresh]
    · simp only [State.setThread_threads, ht, if_false]
      refine fresh_withObligation (fun h => ht ?_) (hi.fresh t')
      exact Option.some.inj (((hi.lock_iff _ t').mpr h).symm.trans hheld)
  · simp only [List.mem_append, List.mem_singleton]
    rintro w (hw | rfl)
    exacts [hi.log_increases w hw, hinc]
  · by_cases hc : pbcr.contractID = c
    · subst hc; exact (hi.history _).write hso hcur
    · exact (hi.history c).write_of_ne hc

/-- Every step keeps the invariant. -/
theorem Inv.stepThread (hi : Inv h0 s) (t : T) : Inv h0 (stepThread env s t) := by
  rcases hpc : (s.threads t).pc with _ | pbcr | pbcr | ⟨pbcr, so, cur, bh⟩ |
    ⟨pbcr, so, cur, sp⟩ | ⟨pbcr, sp⟩ | ⟨pbcr, result⟩ | result <;>
    simp only [ObligationLock.stepThread, hpc]
  case start => split <;> exact hi.setThread (by rw [hpc]; rfl) trivial
  case lockWait =>
    split
    · exact hi.acquire hpc ‹_›
    · exact hi
  case locked =>
    split
    · exact hi.setThread (by rw [hpc]; rfl) trivial
    · exact hi.setThread (by rw [hpc]; rfl) (loadRevision_ok ‹_›)
  case loaded =>
    have hf := hi.fresh t
    rw [hpc] at hf
    split
    · exact hi.setThread (by rw [hpc]; rfl) trivial
    · exact hi.setThread (by rw [hpc]; rfl)
        ⟨hf.1, hf.2, (verifyPayByContractRevision_ok (signPaymentAt_ok ‹_›).2.1).1⟩
  case signed =>
    split
    · exact hi.setThread (by rw [hpc]; rfl) trivial
    · exact hi.write hpc
  case written => split <;> exact hi.setThread (by rw [hpc]; rfl) trivial
  case returning => exact hi.release hpc
  case finished => exact hi

theorem Inv.step (hi : Inv h0 s) : ∀ e : Event T, Inv h0 (step env s e)
  | .act t => hi.stepThread t
  | .setBlockHeight _ => ⟨hi.lock_iff, hi.fresh, hi.log_increases, hi.history⟩

theorem Inv.run (hi : Inv h0 s) (sched : List (Event T)) : Inv h0 (run env s sched) := by
  induction sched generalizing s with
  | nil => exact hi
  | cons e sched ih => exact ih (hi.step e)

/-! ## §5. Serialization -/

/-- What the obligation lock guarantees the payments of a contract. -/
structure Serialized (h0 : Hash → Option StorageObligation) (s : State Accounts T) : Prop where
  /-- At most one call holds a contract's lock. -/
  exclusive : ∀ c t t', (s.threads t).pc.holds = some c → (s.threads t').pc.holds = some c →
    t = t'
  /-- A call that loaded a revision holds the stored obligation and its current revision. -/
  loaded_current : ∀ t pbcr so cur bh, (s.threads t).pc = .loaded pbcr so cur bh →
    s.host.obligations pbcr.contractID = some so ∧ so.recentRevision = .ok cur
  /-- A call that co-signed a payment still holds the stored obligation and revision, and
      its revision raises the revision number. -/
  signed_current : ∀ t pbcr so cur sp, (s.threads t).pc = .signed pbcr so cur sp →
    s.host.obligations pbcr.contractID = some so ∧ so.recentRevision = .ok cur ∧
      cur.newRevisionNumber < sp.revision.newRevisionNumber
  /-- Each contract's writes were verified against the revision written before them, the
      first against the initial one; their revision numbers strictly increase; the stored
      revision is the last one written. -/
  history : ∀ c, writesTo c s.log = [] ∨ ∃ r0, storedRevision (h0 c) = some r0 ∧
    Chained r0 (writesTo c s.log) ∧
    List.Chain (· < ·) r0.newRevisionNumber
      ((writesTo c s.log).map (·.revision.newRevisionNumber)) ∧
    storedRevision (s.host.obligations c) = some (latest r0 (writesTo c s.log))

omit [DecidableEq T] in
theorem Inv.serialized (hi : Inv h0 s) : Serialized h0 s where
  exclusive c t t' h h' :=
    Option.some.inj (((hi.lock_iff c t).mpr h).symm.trans ((hi.lock_iff c t').mpr h'))
  loaded_current t _ _ _ _ hpc := by simpa [hpc, Fresh] using hi.fresh t
  signed_current t _ _ _ _ hpc := by simpa [hpc, Fresh] using hi.fresh t
  history c := by
    rcases hi.history c with ⟨hws, -⟩ | ⟨r0, hr0, hch, hst⟩
    · exact .inl hws
    · refine .inr ⟨r0, hr0, hch, chain_revisionNumbers hch fun w hw => ?_, hst⟩
      exact hi.log_increases w (List.mem_of_mem_filter hw)

/-- Any interleaving of any number of `managedPayByContract` calls, from any host, is
    serialized by the obligation lock. -/
theorem run_payByContract_serialized (h : HostState Accounts) (streams : T → Stream)
    (sched : List (Event T)) :
    Serialized h.obligations (run env (initial h streams) sched) :=
  ((inv_initial h streams).run sched).serialized

/-! ## §6. A call alone -/

/-- A call that runs alone, from its start with no lock held, to its end does what
    `managedPayByContract` does: the same host, result and stream, and every lock free. -/
theorem run_solo_managedPayByContract (s : State Accounts T) (t : T)
    (hpc : (s.threads t).pc = .start) (hfree : ∀ c, s.locks c = none) :
    let s' := run env s (List.replicate 7 (.act t))
    let o := managedPayByContract env s.host (s.threads t).stream
    s'.host = o.host ∧ s'.threads t = ⟨.finished o.result, o.stream⟩ ∧ s'.locks = s.locks := by
  intro s' o
  simp only [s', o, managedPayByContract, signPayment]
  rcases hr : (s.threads t).stream.rpcRead Message.asPayByContractRequest with e | ⟨pbcr, st⟩
  · simp [List.replicate, step, ObligationLock.stepThread, hpc, hr, Outcome.fail]
  rcases hl : loadRevision s.host pbcr.contractID with e | ⟨so, cur⟩
  · simp [List.replicate, step, ObligationLock.stepThread, hpc, hr, hl, hfree, Outcome.fail]
  rcases hs : signPaymentAt env cur pbcr s.host.blockHeight s.host.blockHeight with f | sp
  · simp [List.replicate, step, ObligationLock.stepThread, hpc, hr, hl, hs, hfree]
  rcases hm : env.modifyStorageObligation (sp.obligation so) with _ | e
  · rcases hw : st.rpcWrite
        (.payByContractResponse ⟨signatureBytes sp.hostSignature.signature⟩) with e | st'
    · simp [List.replicate, step, ObligationLock.stepThread, hpc, hr, hl, hs, hm, hw, hfree,
        Outcome.fail]
    · simp [List.replicate, step, ObligationLock.stepThread, hpc, hr, hl, hs, hm, hw, hfree]
  · simp [List.replicate, step, ObligationLock.stepThread, hpc, hr, hl, hs, hm, hfree,
      Outcome.fail]

/-! ## §7. Serial schedules refine the sequential handler -/

variable (env)

/-- A step of call `t` leaves every other call as it was. -/
theorem stepThread_threads_of_ne (s : State Accounts T) {t t' : T} (ht : t' ≠ t) :
    (stepThread env s t).threads t' = s.threads t' := by
  rcases hpc : (s.threads t).pc <;> simp only [ObligationLock.stepThread, hpc] <;>
    (try split) <;> simp [ht]

/-- A schedule in which call `t` never acts leaves it as it was. -/
theorem run_threads_of_not_act (s : State Accounts T) {t : T} (sched : List (Event T))
    (h : ∀ e ∈ sched, e ≠ .act t) : (run env s sched).threads t = s.threads t := by
  induction sched generalizing s with
  | nil => rfl
  | cons e sched ih =>
    rw [run_cons, ih _ fun e' he' => h e' (.tail _ he')]
    cases e with
    | act t' => exact stepThread_threads_of_ne env s fun e => h _ (.head _) (e ▸ rfl)
    | setBlockHeight _ => rfl

omit [DecidableEq T] in
/-- A call outside `ts` never acts in the serial schedule of `ts`. -/
theorem serial_not_act {t : T} {ts : List T} (ht : t ∉ ts) :
    ∀ e ∈ ts.flatMap fun t => List.replicate 7 (Event.act t), e ≠ .act t := by
  intro e he
  obtain ⟨t', ht', he⟩ := List.mem_flatMap.mp he
  rw [List.eq_of_mem_replicate he]
  rintro ⟨⟩
  exact ht ht'

/-- The sequential handler: the calls `ts` run one after another on their streams. -/
def sequential (streams : T → Stream) : HostState Accounts → List T → HostState Accounts
  | h, [] => h
  | h, t :: ts => sequential streams (managedPayByContract env h (streams t)).host ts

omit [DecidableEq T] in
theorem sequential_congr {st st' : T → Stream} (h : HostState Accounts) {ts : List T}
    (hst : ∀ t ∈ ts, st t = st' t) : sequential env st h ts = sequential env st' h ts := by
  induction ts generalizing h with
  | nil => rfl
  | cons t ts ih =>
    simp only [sequential, hst t (.head _), ih _ fun t' ht' => hst t' (.tail _ ht')]

/-- A serial schedule, in which each call of `ts` runs alone from its start to its end, one
    after another, does what the sequential handler does: the same host at the end, each
    call the outcome `managedPayByContract` has on the host the calls before it left, and
    every lock free again. -/
theorem run_serial_managedPayByContract (s : State Accounts T) (ts : List T) (hnd : ts.Nodup)
    (hpc : ∀ t ∈ ts, (s.threads t).pc = .start) (hfree : ∀ c, s.locks c = none) :
    let s' := run env s (ts.flatMap fun t => List.replicate 7 (.act t))
    s'.host = sequential env (fun t => (s.threads t).stream) s.host ts ∧ s'.locks = s.locks ∧
    ∀ pre t post, ts = pre ++ t :: post →
      let o := managedPayByContract env (sequential env (fun t => (s.threads t).stream) s.host pre)
        (s.threads t).stream
      s'.threads t = ⟨.finished o.result, o.stream⟩ := by
  induction ts generalizing s with
  | nil => exact ⟨rfl, rfl, fun pre _ _ h => by cases pre <;> cases h⟩
  | cons t ts ih =>
    intro s'
    obtain ⟨htts, hnd'⟩ := List.nodup_cons.mp hnd
    obtain ⟨hhost, hthread, hlocks⟩ :=
      @run_solo_managedPayByContract _ _ _ env s t (hpc t (.head _)) hfree
    set s1 := run env s (List.replicate 7 (.act t))
    set rest := ts.flatMap fun t => List.replicate 7 (Event.act t)
    have hs' : s' = run env s1 rest := by
      simp only [s', s1, rest, List.flatMap_cons, run, List.foldl_append]
    have hother : ∀ t' ∈ ts, s1.threads t' = s.threads t' := fun t' ht' => by
      have hnot : t' ∉ [t] := by simpa using fun h : t' = t => htts (h ▸ ht')
      exact run_threads_of_not_act env s _ (by simpa using serial_not_act hnot)
    have hseq : ∀ pre, (∀ t' ∈ pre, t' ∈ ts) →
        sequential env (fun t => (s1.threads t).stream) s1.host pre =
          sequential env (fun t => (s.threads t).stream) s.host (t :: pre) := fun pre hpre => by
      rw [sequential, ← hhost]
      exact sequential_congr env _ fun t' ht' => by rw [hother t' (hpre t' ht')]
    obtain ⟨ih1, ih2, ih3⟩ := ih s1 hnd'
      (fun t' ht' => by rw [hother t' ht']; exact hpc t' (.tail _ ht')) (fun c => hlocks ▸ hfree c)
    refine ⟨hs' ▸ ih1.trans (hseq ts fun _ h => h), hs' ▸ ih2.trans hlocks, ?_⟩
    intro pre t' post h
    cases pre with
    | nil =>
      obtain ⟨rfl, rfl⟩ := List.cons.inj h
      rw [hs', run_threads_of_not_act env s1 rest (serial_not_act htts)]
      exact hthread
    | cons t0 pre =>
      obtain ⟨rfl, rfl⟩ := List.cons.inj h
      have ht' : t' ∈ pre ++ t' :: post := List.mem_append_right _ (.head _)
      rw [hs', ih3 pre t' post rfl, hseq pre fun _ h => List.mem_append_left _ h, hother t' ht']

/-- Two calls on contract 7, each run alone: revision 8 pays 500 with 200 collateral, then
    revision 9, verified against the stored revision 8, pays 100 with 50 collateral. -/
def twoPayments : State Nat Bool :=
  initial (scenarioHost 0) fun second =>
    if second then ⟨[.payByContractRequest ⟨7, 9, [1400, 1600], [500, 250, 350], []⟩], true, []⟩
    else ⟨[.payByContractRequest ⟨7, 8, [1500, 1500], [500, 300, 300], []⟩], true, []⟩

theorem twoPayments_serial :
    [false, true].Nodup ∧ (∀ t ∈ [false, true], (twoPayments.threads t).pc = .start) ∧
    (∀ c, twoPayments.locks c = none) ∧
    (let s' := run singleBalance twoPayments
        ([false, true].flatMap fun t => List.replicate 7 (.act t))
     s'.host = sequential singleBalance (fun t => (twoPayments.threads t).stream)
        twoPayments.host [false, true] ∧ s'.locks = twoPayments.locks ∧
     ∀ pre t post, [false, true] = pre ++ t :: post →
       let o := managedPayByContract singleBalance (sequential singleBalance
         (fun t => (twoPayments.threads t).stream) twoPayments.host pre)
         (twoPayments.threads t).stream
       s'.threads t = ⟨.finished o.result, o.stream⟩) ∧
    ((run singleBalance twoPayments
        ([false, true].flatMap fun t => List.replicate 7 (.act t))).threads true).pc =
      .finished (.ok ⟨"", 100, 50⟩) :=
  ⟨by decide, fun _ _ => rfl, fun _ => rfl,
    run_serial_managedPayByContract singleBalance twoPayments _ (by decide) (fun _ _ => rfl)
      fun _ => rfl, rfl⟩

/-! ## §8. Progress: the calls can always finish -/

/-- How many steps a call has left at most: every step that moves a call lowers it. -/
def Pc.rank : Pc → Nat
  | .start => 7
  | .lockWait _ => 6
  | .locked _ => 5
  | .loaded .. => 4
  | .signed .. => 3
  | .written .. => 2
  | .returning .. => 1
  | .finished _ => 0

theorem Pc.rank_le (pc : Pc) : pc.rank ≤ 7 := by
  cases pc <;> simp [Pc.rank]

/-- Call `t` can run: it has not returned and does not wait for a lock another call holds.
    Go's scheduler runs only such goroutines. -/
def Runnable (s : State Accounts T) (t : T) : Bool :=
  match (s.threads t).pc with
  | .lockWait pbcr => (s.locks pbcr.contractID).isNone
  | .finished _ => false
  | _ => true

/-- What a step does to the call that takes it: a runnable call moves to a lower rank, and
    any other call leaves the state as it was. -/
theorem rank_stepThread (s : State Accounts T) (t : T) :
    if Runnable s t then ((stepThread env s t).threads t).pc.rank < (s.threads t).pc.rank
    else stepThread env s t = s := by
  unfold Runnable
  rcases hpc : (s.threads t).pc with _ | pbcr | pbcr | ⟨pbcr, so, cur, bh⟩ |
    ⟨pbcr, so, cur, sp⟩ | ⟨pbcr, sp⟩ | ⟨pbcr, result⟩ | result <;>
    simp only [ObligationLock.stepThread, hpc, ite_true]
  case lockWait => cases hl : s.locks pbcr.contractID <;> simp [hl, hpc, Pc.rank]
  case finished => simp
  all_goals (try split) <;> simp [Pc.rank]

/-- A call is runnable exactly when its step moves it. -/
theorem runnable_iff (s : State Accounts T) (t : T) :
    Runnable s t = true ↔ ((stepThread env s t).threads t).pc.rank < (s.threads t).pc.rank := by
  have h := rank_stepThread env s t
  split at h
  · exact iff_of_true ‹_› h
  · rw [h]
    exact iff_of_false ‹_› (lt_irrefl _)

/-- No step raises a call's rank. -/
theorem rank_stepThread_le (s : State Accounts T) (t t' : T) :
    ((stepThread env s t).threads t').pc.rank ≤ (s.threads t').pc.rank := by
  by_cases ht : t' = t
  · subst ht
    have h := rank_stepThread env s t'
    split at h
    · exact h.le
    · rw [h]
  · rw [stepThread_threads_of_ne env s ht]

omit [DecidableEq T] in
/-- A call holding a lock is runnable: no step between taking a lock and releasing it waits. -/
theorem runnable_of_holds {s : State Accounts T} {t : T} {c : Hash}
    (h : (s.threads t).pc.holds = some c) : Runnable s t = true := by
  unfold Runnable
  split <;> simp_all [Pc.holds]

/-- The steps the calls `ts` have left at most. -/
def remaining (s : State Accounts T) (ts : List T) : Nat :=
  (ts.map fun t => (s.threads t).pc.rank).sum

omit [DecidableEq T] in
theorem remaining_le (s : State Accounts T) (ts : List T) : remaining s ts ≤ 7 * ts.length := by
  have h := List.sum_le_card_nsmul (ts.map fun t => (s.threads t).pc.rank) 7
    (by simp [Pc.rank_le])
  simp at h
  unfold remaining
  omega

/-- A step that moves a call of `ts` lowers what `ts` have left. -/
theorem remaining_stepThread_lt {s : State Accounts T} {ts : List T} {t : T} (ht : t ∈ ts)
    (hlt : ((stepThread env s t).threads t).pc.rank < (s.threads t).pc.rank) :
    remaining (stepThread env s t) ts < remaining s ts :=
  List.sum_lt_sum _ _ (fun t' _ => rank_stepThread_le env s t t') ⟨t, ht, hlt⟩

omit [DecidableEq T] in
/-- No deadlock: while a call of `ts` has not returned, some call of `ts` is runnable, when
    every call holding a lock is among `ts`. A call that cannot run waits for a lock, and the
    call holding it is runnable. -/
theorem exists_runnable (hi : Inv h0 s) {ts : List T}
    (hout : ∀ t, t ∉ ts → (s.threads t).pc.holds = none) {t : T} (ht : t ∈ ts)
    (hfin : ∀ r, (s.threads t).pc ≠ .finished r) : ∃ t' ∈ ts, Runnable s t' = true := by
  cases hr : Runnable s t
  case true => exact ⟨t, ht, hr⟩
  unfold Runnable at hr
  split at hr
  next pbcr _ =>
    rcases hl : s.locks pbcr.contractID with _ | t'
    · simp [hl] at hr
    have hholds := (hi.lock_iff _ t').mp hl
    have ht' : t' ∈ ts := by
      by_contra h
      simp [hout t' h] at hholds
    exact ⟨t', ht', runnable_of_holds hholds⟩
  next => exact absurd ‹_› (hfin _)
  next => cases hr

omit [DecidableEq T] in
/-- When no call of `ts` is runnable, every call of `ts` has returned. -/
theorem finished_of_not_runnable (hi : Inv h0 s) {ts : List T}
    (hout : ∀ t, t ∉ ts → (s.threads t).pc.holds = none)
    (hnr : ∀ t ∈ ts, Runnable s t = false) : ∀ t ∈ ts, ∃ r, (s.threads t).pc = .finished r := by
  intro t ht
  by_contra hfin
  push_neg at hfin
  obtain ⟨t', ht', hr⟩ := exists_runnable hi hout ht hfin
  simp [hnr t' ht'] at hr

omit [DecidableEq T] in
/-- Once the calls `ts` have all returned, and no other call holds a lock, every lock is
    free. -/
theorem locks_free_of_finished (hi : Inv h0 s) {ts : List T}
    (hout : ∀ t, t ∉ ts → (s.threads t).pc.holds = none)
    (hfin : ∀ t ∈ ts, ∃ r, (s.threads t).pc = .finished r) (c : Hash) : s.locks c = none := by
  rcases hl : s.locks c with _ | t
  · rfl
  have hholds := (hi.lock_iff c t).mp hl
  by_cases ht : t ∈ ts
  · obtain ⟨r, hr⟩ := hfin t ht
    simp [hr, Pc.holds] at hholds
  · simp [hout t ht] at hholds

/-- A schedule of calls of `ts` leaves every other call as it was. -/
theorem run_acts_threads_of_not_mem {s : State Accounts T} {ts sched : List T}
    (hmem : ∀ t ∈ sched, t ∈ ts) {t : T} (ht : t ∉ ts) :
    (run env s (sched.map .act)).threads t = s.threads t := by
  refine run_threads_of_not_act env s _ ?_
  simp only [List.mem_map]
  rintro _ ⟨t', ht', rfl⟩ ⟨⟩
  exact ht (hmem _ ht')

/-- From a state the invariant holds of, the calls `ts` all return on a schedule of their
    own steps no longer than what they have left, when every call holding a lock is among
    `ts`. -/
theorem exists_sched_finished (hi : Inv h0 s) (ts : List T)
    (hout : ∀ t, t ∉ ts → (s.threads t).pc.holds = none) :
    ∃ sched : List T, (∀ t ∈ sched, t ∈ ts) ∧ sched.length ≤ remaining s ts ∧
      ∀ t ∈ ts, ∃ r, ((run env s (sched.map .act)).threads t).pc = .finished r := by
  obtain ⟨n, hn⟩ : ∃ n, remaining s ts = n := ⟨_, rfl⟩
  induction n using Nat.strong_induction_on generalizing s with
  | _ n ih =>
  by_cases hall : ∀ t ∈ ts, ∃ r, (s.threads t).pc = .finished r
  · exact ⟨[], by simp, by simp, hall⟩
  push_neg at hall
  obtain ⟨t, ht, hfin⟩ := hall
  obtain ⟨t', ht', hr⟩ := exists_runnable hi hout ht hfin
  have hdec := remaining_stepThread_lt env ht' ((runnable_iff env s t').mp hr)
  have hout' : ∀ t, t ∉ ts → ((stepThread env s t').threads t).pc.holds = none :=
    fun t h => by
      rw [stepThread_threads_of_ne env s (ne_of_mem_of_not_mem ht' h).symm]
      exact hout t h
  obtain ⟨sched, hmem, hlen, hfin⟩ := ih _ (hn ▸ hdec) (hi.stepThread t') hout' rfl
  refine ⟨t' :: sched, ?_, ?_, hfin⟩
  · simpa [ht'] using hmem
  · simp only [List.length_cons]
    omega

/-- Deadlock freedom: from every state reached by any schedule of `managedPayByContract`
    calls, the calls `ts` can all run to their end, on their own steps and at most seven
    steps a call, when every call holding a lock is among `ts`; every lock is then free. -/
theorem run_payByContract_finishes (h : HostState Accounts) (streams : T → Stream)
    (sched0 : List (Event T)) (ts : List T)
    (hout : ∀ t, t ∉ ts → ((run env (initial h streams) sched0).threads t).pc.holds = none) :
    let s := run env (initial h streams) sched0
    ∃ sched : List T, (∀ t ∈ sched, t ∈ ts) ∧ sched.length ≤ 7 * ts.length ∧
      (∀ t ∈ ts, ∃ r, ((run env s (sched.map .act)).threads t).pc = .finished r) ∧
      ∀ c, (run env s (sched.map .act)).locks c = none := by
  intro s
  have hi : Inv h.obligations s := (inv_initial h streams).run sched0
  obtain ⟨sched, hmem, hlen, hfin⟩ := exists_sched_finished env hi ts hout
  refine ⟨sched, hmem, hlen.trans (remaining_le s ts), hfin,
    locks_free_of_finished (hi.run _) (fun t ht => ?_) hfin⟩
  rw [run_acts_threads_of_not_mem env hmem ht]
  exact hout t ht

/-- Call `false` takes the lock of contract 7 and call `true` waits for it; both still
    finish. -/
theorem twoPayments_contested_finish :
    let sched0 : List (Event Bool) := [.act false, .act true, .act false, .act true]
    (∃ pbcr, ((run singleBalance twoPayments sched0).threads true).pc = .lockWait pbcr) ∧
    (∀ t, t ∉ [false, true] → ((run singleBalance twoPayments sched0).threads t).pc.holds = none) ∧
    ∃ sched : List Bool, (∀ t ∈ sched, t ∈ [false, true]) ∧ sched.length ≤ 7 * 2 ∧
      (∀ t ∈ [false, true], ∃ r,
        ((run singleBalance (run singleBalance twoPayments sched0) (sched.map .act)).threads t).pc =
          .finished r) ∧
      ∀ c, (run singleBalance (run singleBalance twoPayments sched0) (sched.map .act)).locks c =
        none :=
  have hout : ∀ t, t ∉ [false, true] → _ := fun t h => absurd (by cases t <;> simp) h
  ⟨⟨_, rfl⟩, hout, run_payByContract_finishes singleBalance (scenarioHost 0) _ _ [false, true] hout⟩

/-- A schedule whose every call is runnable when it is picked. -/
def RunnableSched : State Accounts T → List T → Bool
  | _, [] => true
  | s, t :: sched => Runnable s t && RunnableSched (stepThread env s t) sched

/-- Every schedule of runnable calls of `ts` is no longer than what they have left. -/
theorem length_le_remaining {s : State Accounts T} {ts sched : List T}
    (hmem : ∀ t ∈ sched, t ∈ ts) (hrun : RunnableSched env s sched = true) :
    sched.length ≤ remaining s ts := by
  induction sched generalizing s with
  | nil => exact Nat.zero_le _
  | cons t sched ih =>
    simp only [RunnableSched, Bool.and_eq_true] at hrun
    have hlt := remaining_stepThread_lt env (hmem t (.head _)) ((runnable_iff env s t).mp hrun.1)
    have := ih (fun t' h => hmem t' (.tail _ h)) hrun.2
    simp only [List.length_cons]
    omega

/-- Every run ends: from every state reached by any schedule of `managedPayByContract` calls,
    when every call holding a lock is among `ts`, a schedule that only ever picks a runnable
    call of `ts` takes at most seven steps a call, and once no call of `ts` is runnable, every
    call of `ts` has returned and every lock is free. -/
theorem runnable_sched_payByContract_finishes (h : HostState Accounts) (streams : T → Stream)
    (sched0 : List (Event T)) (ts : List T)
    (hout : ∀ t, t ∉ ts → ((run env (initial h streams) sched0).threads t).pc.holds = none)
    (sched : List T) (hmem : ∀ t ∈ sched, t ∈ ts)
    (hrun : RunnableSched env (run env (initial h streams) sched0) sched = true) :
    let s' := run env (run env (initial h streams) sched0) (sched.map .act)
    sched.length ≤ 7 * ts.length ∧
      ((∀ t ∈ ts, Runnable s' t = false) →
        (∀ t ∈ ts, ∃ r, (s'.threads t).pc = .finished r) ∧ ∀ c, s'.locks c = none) := by
  intro s'
  have hi : Inv h.obligations s' := ((inv_initial h streams).run sched0).run _
  have hout' : ∀ t, t ∉ ts → (s'.threads t).pc.holds = none := fun t ht => by
    rw [run_acts_threads_of_not_mem env hmem ht]
    exact hout t ht
  refine ⟨(length_le_remaining env hmem hrun).trans (remaining_le _ ts), fun hnr => ?_⟩
  have hfin := finished_of_not_runnable hi hout' hnr
  exact ⟨hfin, locks_free_of_finished hi hout' hfin⟩

/-- After the contested start, call `false` runs its five steps to its return, then call
    `true`, which has waited for the lock, its six; neither is then runnable. -/
theorem twoPayments_runnable_finish :
    let sched0 : List (Event Bool) := [.act false, .act true, .act false, .act true]
    let sched := [false, false, false, false, false, true, true, true, true, true, true]
    let s' := run singleBalance (run singleBalance twoPayments sched0) (sched.map .act)
    (∀ t, t ∉ [false, true] → ((run singleBalance twoPayments sched0).threads t).pc.holds = none) ∧
    (∀ t ∈ sched, t ∈ [false, true]) ∧
    RunnableSched singleBalance (run singleBalance twoPayments sched0) sched = true ∧
    (∀ t ∈ [false, true], Runnable s' t = false) ∧
    (sched.length ≤ 7 * 2 ∧
      ((∀ t ∈ [false, true], Runnable s' t = false) →
        (∀ t ∈ [false, true], ∃ r, (s'.threads t).pc = .finished r) ∧ ∀ c, s'.locks c = none)) :=
  have hout : ∀ t, t ∉ [false, true] → _ := fun t h => absurd (by cases t <;> simp) h
  ⟨hout, by decide, rfl, by decide,
    runnable_sched_payByContract_finishes singleBalance (scenarioHost 0) _ _ [false, true] hout _
      (by decide) rfl⟩

/-! ## §9. Calls on different contracts commute -/

/-- The contract a call works on, once it has read its request. -/
def Pc.contract : Pc → Option Hash
  | .lockWait pbcr | .locked pbcr | .loaded pbcr .. | .signed pbcr .. | .written pbcr _
  | .returning pbcr _ => some pbcr.contractID
  | .start | .finished _ => none

/-- What a step of call `t` changes besides the call and the log: the lock and the obligation
    of the contract it works on, and nothing else of the host. -/
theorem stepThread_frame (s : State Accounts T) (t : T) :
    (stepThread env s t).host.accounts = s.host.accounts ∧
    (stepThread env s t).host.blockHeight = s.host.blockHeight ∧
    ∀ c, (s.threads t).pc.contract ≠ some c →
      (stepThread env s t).locks c = s.locks c ∧
      (stepThread env s t).host.obligations c = s.host.obligations c := by
  rcases hpc : (s.threads t).pc with _ | pbcr | pbcr | ⟨pbcr, so, cur, bh⟩ |
    ⟨pbcr, so, cur, sp⟩ | ⟨pbcr, sp⟩ | ⟨pbcr, result⟩ | result <;>
    simp only [ObligationLock.stepThread, hpc]
  all_goals (try split) <;>
    simp_all [Pc.contract, HostState.withObligation, Function.update_apply]
  all_goals intro c h h'; exact absurd h'.symm h

/-- A step of call `t` reads only the call, and the lock, the obligation and the block height
    of its contract: from two states that agree on these, it makes the same change to them
    and logs the same writes. -/
theorem stepThread_local (s s' : State Accounts T) {t : T}
    (hth : s'.threads t = s.threads t) (hbh : s'.host.blockHeight = s.host.blockHeight)
    (hc : ∀ c, (s.threads t).pc.contract = some c →
      s'.locks c = s.locks c ∧ s'.host.obligations c = s.host.obligations c) :
    (stepThread env s' t).threads t = (stepThread env s t).threads t ∧
    (∀ c, (s.threads t).pc.contract = some c →
      (stepThread env s' t).locks c = (stepThread env s t).locks c ∧
      (stepThread env s' t).host.obligations c = (stepThread env s t).host.obligations c) ∧
    ∃ ws, (stepThread env s' t).log = s'.log ++ ws ∧ (stepThread env s t).log = s.log ++ ws := by
  rcases hpc : (s.threads t).pc with _ | pbcr | pbcr | ⟨pbcr, so, cur, bh⟩ |
    ⟨pbcr, so, cur, sp⟩ | ⟨pbcr, sp⟩ | ⟨pbcr, result⟩ | result <;>
    simp only [hpc, Pc.contract, Option.some.injEq, forall_eq', reduceCtorEq, false_imp_iff,
      implies_true] at hc <;>
    simp only [ObligationLock.stepThread, hth, hpc]
  case lockWait =>
    rw [hc.1]
    split <;> simp_all [Pc.contract]
  case locked =>
    rw [show loadRevision s'.host pbcr.contractID = loadRevision s.host pbcr.contractID by
      simp only [loadRevision, hc.2], hbh]
    split <;> simp_all [Pc.contract]
  all_goals (try split) <;> simp_all [Pc.contract, HostState.withObligation]

/-- Two states that differ at most in the order of the ghost log. -/
structure SameUpToLog (s s' : State Accounts T) : Prop where
  host : s.host = s'.host
  locks : s.locks = s'.locks
  threads : s.threads = s'.threads
  log : s.log.Perm s'.log

omit [DecidableEq T] in
/-- Two states agree up to the log's order when they agree on each contract's lock and
    obligation, on the accounts and the block height, and on each call. -/
theorem SameUpToLog.of_fields {s s' : State Accounts T}
    (hlo : ∀ c, s.locks c = s'.locks c ∧ s.host.obligations c = s'.host.obligations c)
    (ha : s.host.accounts = s'.host.accounts) (hb : s.host.blockHeight = s'.host.blockHeight)
    (hth : ∀ u, s.threads u = s'.threads u) (hlog : s.log.Perm s'.log) : SameUpToLog s s' := by
  refine ⟨?_, funext fun c => (hlo c).1, funext hth, hlog⟩
  have ho : s.host.obligations = s'.host.obligations := funext fun c => (hlo c).2
  cases hs : s.host
  cases hs' : s'.host
  simp_all

/-- The steps never read the log: states that differ only in its order stay so. -/
theorem SameUpToLog.stepThread {s s' : State Accounts T} (h : SameUpToLog s s') (t : T) :
    SameUpToLog (stepThread env s t) (stepThread env s' t) := by
  have hth : s'.threads t = s.threads t := congrFun h.threads.symm t
  obtain ⟨ht1, hc1, ws, hw', hw⟩ := stepThread_local env s s' hth
    (by rw [h.host]) fun c _ => ⟨by rw [h.locks], by rw [h.host]⟩
  obtain ⟨ha, hb, hf⟩ := stepThread_frame env s t
  obtain ⟨ha', hb', hf'⟩ := stepThread_frame env s' t
  rw [hth] at hf'
  -- the lock and the obligation of each contract
  have hlo : ∀ c, (ObligationLock.stepThread env s t).locks c =
      (ObligationLock.stepThread env s' t).locks c ∧
      (ObligationLock.stepThread env s t).host.obligations c =
        (ObligationLock.stepThread env s' t).host.obligations c := by
    intro c
    by_cases hct : (s.threads t).pc.contract = some c
    · exact ⟨(hc1 c hct).1.symm, (hc1 c hct).2.symm⟩
    · rw [(hf c hct).1, (hf c hct).2, (hf' c hct).1, (hf' c hct).2, h.locks, h.host]
      exact ⟨rfl, rfl⟩
  refine .of_fields hlo (by rw [ha, ha', h.host]) (by rw [hb, hb', h.host]) (fun u => ?_) ?_
  · by_cases hu : u = t
    · subst hu
      exact ht1.symm
    · rw [stepThread_threads_of_ne env s hu, stepThread_threads_of_ne env s' hu, h.threads]
  · rw [hw, hw']
    exact h.log.append_right ws

/-- Every schedule run from two states that differ only in the log's order ends in two such
    states. -/
theorem SameUpToLog.run {s s' : State Accounts T} (h : SameUpToLog s s')
    (sched : List (Event T)) : SameUpToLog (run env s sched) (run env s' sched) := by
  induction sched generalizing s s' with
  | nil => exact h
  | cons e sched ih =>
    refine ih ?_
    cases e with
    | act t => exact h.stepThread env t
    | setBlockHeight bh => exact ⟨by simp only [step, h.host], h.locks, h.threads, h.log⟩

/-- Steps of two calls on different contracts commute: taken in either order from any state,
    they leave the same host, locks and calls, and log the same writes. -/
theorem stepThread_comm (s : State Accounts T) {t t' : T} (ht : t ≠ t')
    (hc : ∀ c, (s.threads t).pc.contract = some c → (s.threads t').pc.contract ≠ some c) :
    SameUpToLog (stepThread env (stepThread env s t) t')
      (stepThread env (stepThread env s t') t) := by
  set a := stepThread env s t
  set b := stepThread env s t'
  obtain ⟨haa, hba, hfa⟩ := stepThread_frame env s t
  obtain ⟨hab, hbb, hfb⟩ := stepThread_frame env s t'
  have hta : a.threads t' = s.threads t' := stepThread_threads_of_ne env s ht.symm
  have htb : b.threads t = s.threads t := stepThread_threads_of_ne env s ht
  -- `t'` steps from `a` as it does from `s`, and `t` from `b` as from `s`
  obtain ⟨h1t, h1c, ws1, hw1, hb1⟩ := stepThread_local env s a hta hba
    fun c hc' => hfa c fun h => hc c h hc'
  obtain ⟨h2t, h2c, ws2, hw2, ha2⟩ := stepThread_local env s b htb hbb
    fun c hc' => hfb c (hc c hc')
  obtain ⟨haa1, hba1, hf1⟩ := stepThread_frame env a t'
  obtain ⟨hab2, hbb2, hf2⟩ := stepThread_frame env b t
  rw [hta] at hf1
  rw [htb] at hf2
  -- the lock and the obligation of each contract: set by the call on it, if any
  have hlo : ∀ c, (stepThread env a t').locks c = (stepThread env b t).locks c ∧
      (stepThread env a t').host.obligations c = (stepThread env b t).host.obligations c := by
    intro c
    by_cases hct : (s.threads t).pc.contract = some c
    · rw [(hf1 c (hc c hct)).1, (hf1 c (hc c hct)).2, (h2c c hct).1, (h2c c hct).2]
      exact ⟨rfl, rfl⟩
    by_cases hct' : (s.threads t').pc.contract = some c
    · rw [(h1c c hct').1, (h1c c hct').2, (hf2 c hct).1, (hf2 c hct).2]
      exact ⟨rfl, rfl⟩
    · rw [(hf1 c hct').1, (hf1 c hct').2, (hf2 c hct).1, (hf2 c hct).2, (hfa c hct).1,
        (hfa c hct).2, (hfb c hct').1, (hfb c hct').2]
      exact ⟨rfl, rfl⟩
  refine .of_fields hlo (by rw [haa1, hab2, haa, hab]) (by rw [hba1, hbb2, hba, hbb])
    (fun u => ?_) ?_
  · by_cases hu : u = t
    · subst hu
      rw [stepThread_threads_of_ne env a ht, h2t]
    by_cases hu' : u = t'
    · subst hu'
      rw [h1t, stepThread_threads_of_ne env b (Ne.symm ht)]
    · rw [stepThread_threads_of_ne env a hu', stepThread_threads_of_ne env s hu,
        stepThread_threads_of_ne env b hu, stepThread_threads_of_ne env s hu']
  · rw [hw1, hw2, ha2, hb1, List.append_assoc, List.append_assoc]
    exact List.perm_append_comm.append_left s.log

/-- No cross-contract ordering: in any schedule, from any state, swapping two adjacent steps of
    calls on different contracts changes neither the host, nor the locks, nor any call at the
    end of the schedule; the ghost log lists the same writes. -/
theorem run_swap_comm (s : State Accounts T) (pre post : List (Event T)) {t t' : T}
    (ht : t ≠ t') (hc : ∀ c, ((run env s pre).threads t).pc.contract = some c →
      ((run env s pre).threads t').pc.contract ≠ some c) :
    SameUpToLog (run env s (pre ++ .act t :: .act t' :: post))
      (run env s (pre ++ .act t' :: .act t :: post)) := by
  simp only [run, List.foldl_append, List.foldl_cons]
  exact (stepThread_comm env _ ht hc).run env post

/-- Two calls on contracts 7 and 8, at their start. -/
def twoContracts : State Nat Bool :=
  initial (scenarioHost 0) fun second =>
    if second then ⟨[.payByContractRequest ⟨8, 9, [1400, 1600], [500, 250, 350], []⟩], true, []⟩
    else ⟨[.payByContractRequest ⟨7, 8, [1500, 1500], [500, 300, 300], []⟩], true, []⟩

/-- Once both calls hold their locks, the load of contract 7 and the failed load of
    contract 8 may be taken in either order. -/
theorem twoContracts_swap :
    let pre : List (Event Bool) := [.act false, .act true, .act false, .act true]
    let post : List (Event Bool) := [.act false, .act true, .act false, .act true]
    false ≠ true ∧
    (∀ c, ((run singleBalance twoContracts pre).threads false).pc.contract = some c →
      ((run singleBalance twoContracts pre).threads true).pc.contract ≠ some c) ∧
    SameUpToLog (run singleBalance twoContracts (pre ++ .act false :: .act true :: post))
      (run singleBalance twoContracts (pre ++ .act true :: .act false :: post)) :=
  have hc : ∀ c, ((run singleBalance twoContracts
      [.act false, .act true, .act false, .act true]).threads false).pc.contract = some c →
      ((run singleBalance twoContracts
        [.act false, .act true, .act false, .act true]).threads true).pc.contract ≠ some c :=
    fun _ h h' => absurd (h.trans h'.symm) (by decide)
  ⟨by decide, hc, run_swap_comm singleBalance twoContracts _ _ (by decide) hc⟩

end FormalSia.Host.ObligationLock
