/-
  FormalSia.Host.PaymentProofs — what a payment call builds, stores and leaves behind.

  Main results:
    * `revisionFromRequest_payment_stored` — for a request whose value vectors match the
      current revision's outputs, the payment revision is the current one with the request's
      revision number and values (unlock hashes kept); a successful verification returns
      exactly the host's payout increase and the collateral moved out of its missed output;
      and a successful `managedPayByContract` stores one transaction holding the payment
      revision and the renter's signature over revision 0.
    * `revisionFromRequest_eq_none_iff`, `managedPayByContract_panics_of_long_request` — a
      request carrying more values than the current revision has outputs makes
      `revisionFromRequest` index past the outputs, before anything verifies the counts.
    * `processPayment_ok` — a successful payment changes only what its method pays with:
      the accounts, moving no collateral, or the obligation of the paying contract.
    * `processPayment_error_committed_only_by_reply` — an error leaves the host's state as
      it was, except when only the final response write failed: then the withdrawal or the
      revision is committed exactly as by the successful call.
    * `processPayment_panics_iff` — when `createRevisionSignature` returns both signatures,
      that index past the outputs is the only panic of a payment: the ephemeral-account
      handler and the payout reads of the verification never panic.
-/
import FormalSia.Host.Payment

namespace FormalSia.Host

/-! ## §1. `revisionFromRequest` -/

theorem outputsFromValues_eq_none_iff {vs : List Nat} {os : List SiacoinOutput} :
    outputsFromValues vs os = none ↔ os.length < vs.length := by
  induction vs generalizing os with
  | nil => simp [outputsFromValues]
  | cons v vs ih =>
    cases os with
    | nil => simp [outputsFromValues]
    | cons o os => simp [outputsFromValues, ih]

/-- `revisionFromRequest` reads past the recent outputs exactly when a value vector of the
    request is longer than the matching output vector. -/
theorem revisionFromRequest_eq_none_iff (recent : FileContractRevision)
    (pbcr : PayByContractRequest) :
    revisionFromRequest recent pbcr = none ↔
      recent.newValidProofOutputs.length < pbcr.newValidProofValues.length ∨
      recent.newMissedProofOutputs.length < pbcr.newMissedProofValues.length := by
  rw [← outputsFromValues_eq_none_iff, ← outputsFromValues_eq_none_iff, revisionFromRequest]
  cases outputsFromValues pbcr.newValidProofValues recent.newValidProofOutputs <;>
    cases outputsFromValues pbcr.newMissedProofValues recent.newMissedProofOutputs <;> simp

/-- A guard that returns an error: passing it means its condition was false. -/
theorem ite_error_eq_ok {c : Prop} [Decidable c] {ε α : Type} {e : ε} {t : Except ε α} {a : α}
    (h : (if c then .error e else t) = .ok a) : ¬c ∧ t = .ok a := by
  by_cases hc : c
  · rw [if_pos hc] at h; cases h
  · rw [if_neg hc] at h; exact ⟨hc, h⟩

/-- What a successful `verifyPaymentRevision` guarantees about the host's outputs and the
    revision number. -/
theorem verifyPaymentRevision_ok {current payment : FileContractRevision} {bh : BlockHeight}
    {x : Nat} (h : verifyPaymentRevision current payment bh x = .ok ()) :
    current.newRevisionNumber < payment.newRevisionNumber ∧
    ∃ ch ph cm pm, current.validHostPayout = some ch ∧ payment.validHostPayout = some ph ∧
      current.missedHostOutput = some cm ∧ payment.missedHostOutput = some pm ∧
      ch ≤ ph ∧ pm.value ≤ cm.value := by
  unfold verifyPaymentRevision at h
  obtain ⟨h1, h⟩ := ite_error_eq_ok h
  obtain ⟨-, h⟩ := ite_error_eq_ok h
  obtain ⟨-, h⟩ := ite_error_eq_ok h
  split at h
  · rename_i cr pr ch ph cm pm cv pv _ _ e3 e4 e5 e6 _ _
    obtain ⟨h4, -⟩ := ite_error_eq_ok h
    simp only [not_or, not_lt] at h4
    exact ⟨Nat.lt_of_not_le h1, ch, ph, cm, pm, e3, e4, e5, e6, h4.2.1, h4.2.2.1⟩
  · cases h

/-- A successful `verifyPayByContractRevision` returns the host's valid payout increase and
    the decrease of its missed output, both without underflow. -/
theorem verifyPayByContractRevision_ok {current payment : FileContractRevision}
    {bh : BlockHeight} {amount collateral : Nat}
    (h : verifyPayByContractRevision current payment bh = .ok (amount, collateral)) :
    current.newRevisionNumber < payment.newRevisionNumber ∧
    ∃ ch cm pm, current.validHostPayout = some ch ∧ payment.validHostPayout = some (ch + amount) ∧
      current.missedHostOutput = some cm ∧ payment.missedHostOutput = some pm ∧
      cm.value = pm.value + collateral := by
  unfold verifyPayByContractRevision at h
  split at h
  · cases h
  · rename_i hv
    obtain ⟨hrev, ch, ph, cm, pm, e1, e2, e3, e4, hle1, hle2⟩ := verifyPaymentRevision_ok hv
    simp only [e1, e2, e3, e4, Except.ok.injEq, Prod.mk.injEq] at h
    obtain ⟨rfl, rfl⟩ := h
    exact ⟨hrev, ch, cm, pm, e1, by rw [e2]; congr 1; omega, e3, e4, by omega⟩

/-! ## §3. Successful payments -/

variable {Accounts : Type} {env : Collaborators Accounts}

/-- A co-signed payment comes from `revisionFromRequest`, passed verification against the
    height read after loading, whatever the height it was signed at, and carries the renter's
    signature from the request. -/
theorem signPaymentAt_ok {c : FileContractRevision} {q : PayByContractRequest}
    {bh blockHeight : BlockHeight} {sp : SignedPayment}
    (h : signPaymentAt env c q bh blockHeight = .ok sp) :
    revisionFromRequest c q = some sp.revision ∧
    verifyPayByContractRevision c sp.revision bh = .ok (sp.amount, sp.collateral) ∧
    sp.renterSignature = signatureFromRequest c q := by
  unfold signPaymentAt at h
  split at h
  · cases h
  rename_i p hp
  split at h
  · cases h
  · cases h
  rename_i amount collateral hv
  dsimp only at h
  split at h
  · cases h
  split at h
  · cases h
  · cases h; exact ⟨hp, hv, rfl⟩

/-- A loaded revision is the recent revision of the stored obligation. -/
theorem loadRevision_ok {h : HostState Accounts} {fcid : Hash} {so : StorageObligation}
    {c : FileContractRevision} (hl : loadRevision h fcid = .ok (so, c)) :
    h.obligations fcid = some so ∧ so.recentRevision = .ok c := by
  unfold loadRevision at hl
  split at hl
  · cases hl
  · split at hl <;> cases hl; exact ⟨‹_›, ‹_›⟩

/-- The current revision of the spec's contract-payment scenario: valid outputs renter 2000,
    host 1000; missed outputs renter 500, host 500, void 100; revision 7 of contract 7. -/
def scenarioRevision : FileContractRevision :=
  { parentID := 7, unlockConditions := ⟨0, [], 1⟩, newRevisionNumber := 7, newFileSize := 0,
    newFileMerkleRoot := 0, newWindowStart := 100, newWindowEnd := 200,
    newValidProofOutputs := [⟨2000, 1⟩, ⟨1000, 2⟩],
    newMissedProofOutputs := [⟨500, 1⟩, ⟨500, 2⟩, ⟨100, 3⟩], newUnlockHash := 0 }

/-- A host at height 50 whose obligation for contract 7 holds `scenarioRevision`. -/
def scenarioHost (accounts : Accounts) : HostState Accounts :=
  { obligations := fun fcid => if fcid = 7 then some ⟨[⟨[scenarioRevision], []⟩]⟩ else none
    accounts := accounts, blockHeight := 50 }

/-- Collaborators that always succeed: one account balance to withdraw from, and a host
    that co-signs every revision. -/
def singleBalance : Collaborators Nat :=
  { callWithdraw := fun balance msg _ _ =>
      if msg.amount ≤ balance then .ok (balance - msg.amount) else .error ["insufficient balance"]
    createRevisionSignature := fun rev renterSignature _ =>
      .ok ⟨[rev], [renterSignature, ⟨rev.parentID, ⟨[0]⟩, 1, []⟩]⟩
    modifyStorageObligation := fun _ => none }

/-- Once the request is read and the obligation loaded, a request carrying more values than
    the current revision has outputs panics the handler, whatever its collaborators do:
    `revisionFromRequest` indexes past the outputs before anything verifies their count. -/
theorem managedPayByContract_panics_of_long_request (env : Collaborators Accounts)
    (h : HostState Accounts) {s s' : Stream} {pbcr : PayByContractRequest}
    {so : StorageObligation} {c : FileContractRevision}
    (hr : s.rpcRead Message.asPayByContractRequest = .ok (pbcr, s'))
    (hl : loadRevision h pbcr.contractID = .ok (so, c))
    (hlong : c.newValidProofOutputs.length < pbcr.newValidProofValues.length ∨
      c.newMissedProofOutputs.length < pbcr.newMissedProofValues.length) :
    (managedPayByContract env h s).result = .error (.panic "index out of range") := by
  have hn := (revisionFromRequest_eq_none_iff c pbcr).mpr hlong
  simp [managedPayByContract, hr, hl, signPayment, signPaymentAt, hn]

/-- The scenario's payment with a third valid-proof value: the request reads, contract 7's
    obligation loads, and the handler panics indexing the third valid output. -/
theorem scenario_long_request_panics :
    Stream.rpcRead Message.asPayByContractRequest
        ⟨[.payByContractRequest ⟨7, 8, [1500, 1500, 1], [500, 300, 300], []⟩], true, []⟩ =
      .ok (⟨7, 8, [1500, 1500, 1], [500, 300, 300], []⟩, ⟨[], true, []⟩) ∧
    loadRevision (scenarioHost 0) 7 = .ok (⟨[⟨[scenarioRevision], []⟩]⟩, scenarioRevision) ∧
    (2 < 3 ∨ 3 < 3) ∧
    (managedPayByContract singleBalance (scenarioHost 0)
      ⟨[.payByContractRequest ⟨7, 8, [1500, 1500, 1], [500, 300, 300], []⟩], true, []⟩).result =
      .error (.panic "index out of range") :=
  ⟨rfl, rfl, .inl (by decide), managedPayByContract_panics_of_long_request singleBalance _ rfl rfl
    (.inl (by decide))⟩

/-- The scenario's payment with a third valid-proof value: the stored revision has two valid
    outputs, the request three values, and `ProcessPayment` panics instead of returning an
    error, whatever the collaborators and the account state. -/
theorem processPayment_three_valid_values_panics (env : Collaborators Accounts)
    (accounts : Accounts) :
    (processPayment env (scenarioHost accounts)
      ⟨[.paymentRequest ⟨payByContract⟩,
        .payByContractRequest ⟨7, 8, [1500, 1500, 1], [500, 300, 300], []⟩], true, []⟩).result =
      .error (.panic "index out of range") := rfl

/-! ## §5. What a failed payment leaves behind -/

theorem rpcRead_withWritable {α : Type} (decode : Message → Option α) (s : Stream) (b : Bool) :
    Stream.rpcRead decode { s with writable := b } =
      (s.rpcRead decode).map fun p => (p.1, { p.2 with writable := b }) := by
  rcases s with ⟨_ | ⟨m, rest⟩, w, out⟩
  · rfl
  · simp only [Stream.rpcRead]; cases decode m <;> rfl

theorem rpcRead_ok_writable {α : Type} {decode : Message → Option α} {s s' : Stream} {a : α}
    (h : s.rpcRead decode = .ok (a, s')) : s'.writable = s.writable := by
  unfold Stream.rpcRead at h
  split at h
  · cases h
  · split at h <;> cases h; rfl

/-- An error of the ephemeral-account handler leaves the host as it was, unless only the
    response write failed; then the withdrawal stands as in the successful call. -/
theorem staticPayByEphemeralAccount_error {h : HostState Accounts} {s : Stream} {f : Fault}
    (hf : (staticPayByEphemeralAccount env h s).result = .error f) :
    (staticPayByEphemeralAccount env h s).host = h ∨
    (s.writable = false ∧ ∃ pd,
      (staticPayByEphemeralAccount env h { s with writable := true }).result = .ok pd ∧
      (staticPayByEphemeralAccount env h { s with writable := true }).host =
        (staticPayByEphemeralAccount env h s).host) := by
  unfold staticPayByEphemeralAccount at hf ⊢
  rw [rpcRead_withWritable _ s true]
  rcases hr : s.rpcRead Message.asPayByEphemeralAccountRequest with e | ⟨req, s'⟩ <;>
    simp only [hr, Except.map, Outcome.fail] at hf ⊢
  · exact .inl trivial
  rcases hw : env.callWithdraw h.accounts req.message req.signature req.priority with e | acc <;>
    simp only [hw, Outcome.fail] at hf ⊢
  · exact .inl trivial
  right
  rw [← rpcRead_ok_writable hr]
  cases hs' : s'.writable <;> simp [Stream.rpcWrite, hs', Outcome.fail] at hf ⊢

/-- An error of the contract handler leaves the host as it was, unless only the response
    write failed; then the obligation holds the new revision as in the successful call. -/
theorem managedPayByContract_error {h : HostState Accounts} {s : Stream} {f : Fault}
    (hf : (managedPayByContract env h s).result = .error f) :
    (managedPayByContract env h s).host = h ∨
    (s.writable = false ∧ ∃ pd,
      (managedPayByContract env h { s with writable := true }).result = .ok pd ∧
      (managedPayByContract env h { s with writable := true }).host =
        (managedPayByContract env h s).host) := by
  unfold managedPayByContract at hf ⊢
  rw [rpcRead_withWritable _ s true]
  rcases hr : s.rpcRead Message.asPayByContractRequest with e | ⟨pbcr, s'⟩ <;>
    simp only [hr, Except.map, Outcome.fail] at hf ⊢
  · exact .inl trivial
  rcases hl : loadRevision h pbcr.contractID with e | ⟨so, c⟩ <;>
    simp only [hl, Outcome.fail] at hf ⊢
  · exact .inl trivial
  rcases hs : signPayment env c pbcr h.blockHeight with e | sp <;> simp only [hs] at hf ⊢
  · exact .inl trivial
  rcases hm : env.modifyStorageObligation (sp.obligation so) with _ | e <;>
    simp only [hm, Outcome.fail] at hf ⊢
  · right
    rw [← rpcRead_ok_writable hr]
    cases hs' : s'.writable <;> simp [Stream.rpcWrite, hs', Outcome.fail] at hf ⊢
  · exact .inl trivial

/-- An error of `ProcessPayment` leaves the host's state (account manager and storage
    obligations) as it was, unless only the final response write failed; then the payment
    is taken exactly as by the same call on a stream that accepts the write, which
    succeeds. -/
theorem processPayment_error_committed_only_by_reply (env : Collaborators Accounts)
    (h : HostState Accounts) (s : Stream) {f : Fault}
    (hf : (processPayment env h s).result = .error f) :
    (processPayment env h s).host = h ∨
    (s.writable = false ∧ ∃ pd,
      (processPayment env h { s with writable := true }).result = .ok pd ∧
      (processPayment env h { s with writable := true }).host = (processPayment env h s).host) := by
  unfold processPayment at hf ⊢
  rw [rpcRead_withWritable _ s true]
  rcases hr : s.rpcRead Message.asPaymentRequest with e | ⟨pr, s'⟩ <;>
    simp only [hr, Except.map, Outcome.fail] at hf ⊢
  · exact .inl trivial
  rw [← rpcRead_ok_writable hr]
  by_cases h1 : pr.type = payByEphemeralAccount
  · simp only [h1, if_true] at hf ⊢
    exact staticPayByEphemeralAccount_error hf
  by_cases h2 : pr.type = payByContract
  · simp only [h1, h2, if_true, if_false] at hf ⊢
    exact managedPayByContract_error hf
  · simp [h1, h2]

/-- An ephemeral-account payment of 1000 whose response write fails: `ProcessPayment`
    returns an error, yet the 1000 are withdrawn. -/
theorem processPayment_reply_failure_keeps_withdrawal :
    (processPayment singleBalance (scenarioHost 1000)
      ⟨[.paymentRequest ⟨payByEphemeralAccount⟩,
        .payByEphemeralAccountRequest ⟨⟨"", 0, 1000, 0⟩, [], 0⟩], false, []⟩).result =
      .error (.error ["Could not send PayByEphemeralAccountResponse", "stream closed"]) ∧
    (processPayment singleBalance (scenarioHost 1000)
      ⟨[.paymentRequest ⟨payByEphemeralAccount⟩,
        .payByEphemeralAccountRequest ⟨⟨"", 0, 1000, 0⟩, [], 0⟩], false, []⟩).host.accounts = 0 :=
  ⟨rfl, rfl⟩

/-- The same failed reply, read through the error lemma: the payment is not rolled back, it
    is taken exactly as by the call whose reply reaches the renter, and that call succeeds. -/
theorem reply_failure_committed_as_success :
    (processPayment singleBalance (scenarioHost 1000)
      ⟨[.paymentRequest ⟨payByEphemeralAccount⟩,
        .payByEphemeralAccountRequest ⟨⟨"", 0, 1000, 0⟩, [], 0⟩], false, []⟩).result =
      .error (.error ["Could not send PayByEphemeralAccountResponse", "stream closed"]) ∧
    ((processPayment singleBalance (scenarioHost 1000)
      ⟨[.paymentRequest ⟨payByEphemeralAccount⟩,
        .payByEphemeralAccountRequest ⟨⟨"", 0, 1000, 0⟩, [], 0⟩], false, []⟩).host =
      scenarioHost 1000 ∨
    ((false : Bool) = false ∧ ∃ pd,
      (processPayment singleBalance (scenarioHost 1000)
        ⟨[.paymentRequest ⟨payByEphemeralAccount⟩,
          .payByEphemeralAccountRequest ⟨⟨"", 0, 1000, 0⟩, [], 0⟩], true, []⟩).result = .ok pd ∧
      (processPayment singleBalance (scenarioHost 1000)
        ⟨[.paymentRequest ⟨payByEphemeralAccount⟩,
          .payByEphemeralAccountRequest ⟨⟨"", 0, 1000, 0⟩, [], 0⟩], true, []⟩).host =
      (processPayment singleBalance (scenarioHost 1000)
        ⟨[.paymentRequest ⟨payByEphemeralAccount⟩,
          .payByEphemeralAccountRequest ⟨⟨"", 0, 1000, 0⟩, [], 0⟩], false, []⟩).host)) :=
  ⟨rfl, processPayment_error_committed_only_by_reply singleBalance (scenarioHost 1000) _ rfl⟩


/-! ## §6. Where a payment panics -/

/-- `createRevisionSignature` returns a transaction with both signatures, the renter's and
    the host's. -/
def SignsBoth (env : Collaborators Accounts) : Prop :=
  ∀ rev renterSignature bh txn, env.createRevisionSignature rev renterSignature bh = .ok txn →
    2 ≤ txn.transactionSignatures.length

/-- The ephemeral-account handler never panics. -/
theorem staticPayByEphemeralAccount_no_panic (h : HostState Accounts) (s : Stream)
    (reason : String) : (staticPayByEphemeralAccount env h s).result ≠ .error (.panic reason) := by
  unfold staticPayByEphemeralAccount Outcome.fail
  split
  · simp
  split
  · simp
  split <;> simp

/-- The payout indexing of `verifyPayByContractRevision` never panics: the verification has
    checked that every payout it reads is there. -/
theorem verifyPayByContractRevision_no_panic (current payment : FileContractRevision)
    (bh : BlockHeight) (reason : String) :
    verifyPayByContractRevision current payment bh ≠ .error (.panic reason) := by
  unfold verifyPayByContractRevision
  split
  · simp
  · rename_i hv
    obtain ⟨-, ch, ph, cm, pm, e1, e2, e3, e4, -⟩ := verifyPaymentRevision_ok hv
    simp [e1, e2, e3, e4]

/-- With both signatures returned, co-signing a payment panics exactly where
    `revisionFromRequest` indexes past the outputs. -/
theorem signPayment_panics_iff (hsig : SignsBoth env) (c : FileContractRevision)
    (q : PayByContractRequest) (bh : BlockHeight) :
    (∃ reason, signPayment env c q bh = .error (.panic reason)) ↔
      revisionFromRequest c q = none := by
  unfold signPayment signPaymentAt
  rcases hp : revisionFromRequest c q with _ | p
  · simp
  simp only [reduceCtorEq, iff_false, not_exists]
  intro reason
  rcases hv : verifyPayByContractRevision c p bh with (e | r) | ⟨amount, collateral⟩
  · simp
  · exact absurd hv (verifyPayByContractRevision_no_panic c p bh r)
  · rcases ht : env.createRevisionSignature p (signatureFromRequest c q) bh with e | txn
    · simp
    · simp [List.getElem?_eq_getElem (hsig _ _ _ _ ht)]

/-- With both signatures returned, the contract handler panics exactly when, once the request
    is read and the obligation loaded, the request carries more values than the current
    revision has outputs. -/
theorem managedPayByContract_panics_iff (hsig : SignsBoth env) (h : HostState Accounts)
    (s : Stream) :
    (∃ reason, (managedPayByContract env h s).result = .error (.panic reason)) ↔
      ∃ pbcr s' so c, s.rpcRead Message.asPayByContractRequest = .ok (pbcr, s') ∧
        loadRevision h pbcr.contractID = .ok (so, c) ∧
        (c.newValidProofOutputs.length < pbcr.newValidProofValues.length ∨
          c.newMissedProofOutputs.length < pbcr.newMissedProofValues.length) := by
  unfold managedPayByContract
  rcases hr : s.rpcRead Message.asPayByContractRequest with e | ⟨pbcr, s'⟩
  · simp [Outcome.fail]
  dsimp only
  rcases hl : loadRevision h pbcr.contractID with e | ⟨so, c⟩
  · simp [Outcome.fail, hl]
  have hrhs : (∃ pbcr' s'' so' c',
      (.ok (pbcr, s') : Except Error (PayByContractRequest × Stream)) = .ok (pbcr', s'') ∧
      loadRevision h pbcr'.contractID = .ok (so', c') ∧
      (c'.newValidProofOutputs.length < pbcr'.newValidProofValues.length ∨
        c'.newMissedProofOutputs.length < pbcr'.newMissedProofValues.length)) ↔
      revisionFromRequest c pbcr = none := by
    rw [revisionFromRequest_eq_none_iff]
    constructor
    · rintro ⟨_, _, _, _, ⟨⟩, hl', hlong⟩
      obtain ⟨rfl, rfl⟩ := Prod.mk.inj (Except.ok.inj (hl.symm.trans hl'))
      exact hlong
    · exact fun hlong => ⟨pbcr, s', so, c, rfl, hl, hlong⟩
  rw [hrhs, ← signPayment_panics_iff hsig]
  dsimp only
  rcases hs : signPayment env c pbcr h.blockHeight with f | sp
  · simp
  · simp only [reduceCtorEq, exists_false, iff_false, not_exists]
    intro reason
    split
    · simp [Outcome.fail]
    · split <;> simp [Outcome.fail]

/-- With both signatures returned, `ProcessPayment` panics exactly on a contract payment whose
    request, once read with its obligation loaded, carries more values than the current
    revision has outputs.  Nothing else panics: the ephemeral-account handler never does,
    and the verification checks the output counts before it reads a payout. -/
theorem processPayment_panics_iff (env : Collaborators Accounts) (hsig : SignsBoth env)
    (h : HostState Accounts) (s : Stream) :
    (∃ reason, (processPayment env h s).result = .error (.panic reason)) ↔
      ∃ pr s1 pbcr s2 so c, s.rpcRead Message.asPaymentRequest = .ok (pr, s1) ∧
        pr.type = payByContract ∧ s1.rpcRead Message.asPayByContractRequest = .ok (pbcr, s2) ∧
        loadRevision h pbcr.contractID = .ok (so, c) ∧
        (c.newValidProofOutputs.length < pbcr.newValidProofValues.length ∨
          c.newMissedProofOutputs.length < pbcr.newMissedProofValues.length) := by
  unfold processPayment
  rcases hr : s.rpcRead Message.asPaymentRequest with e | ⟨pr, s1⟩
  · simp [Outcome.fail]
  have hrhs : (∃ pr' s1' pbcr s2 so c,
      (.ok (pr, s1) : Except Error (PaymentRequest × Stream)) = .ok (pr', s1') ∧
      pr'.type = payByContract ∧ s1'.rpcRead Message.asPayByContractRequest = .ok (pbcr, s2) ∧
      loadRevision h pbcr.contractID = .ok (so, c) ∧
      (c.newValidProofOutputs.length < pbcr.newValidProofValues.length ∨
        c.newMissedProofOutputs.length < pbcr.newMissedProofValues.length)) ↔
      pr.type = payByContract ∧ ∃ pbcr s2 so c,
        s1.rpcRead Message.asPayByContractRequest = .ok (pbcr, s2) ∧
        loadRevision h pbcr.contractID = .ok (so, c) ∧
        (c.newValidProofOutputs.length < pbcr.newValidProofValues.length ∨
          c.newMissedProofOutputs.length < pbcr.newMissedProofValues.length) := by
    constructor
    · rintro ⟨_, _, pbcr, s2, so, c, ⟨⟩, ht, hrest⟩
      exact ⟨ht, pbcr, s2, so, c, hrest⟩
    · rintro ⟨ht, pbcr, s2, so, c, hrest⟩
      exact ⟨pr, s1, pbcr, s2, so, c, rfl, ht, hrest⟩
  rw [hrhs]
  dsimp only
  by_cases h1 : pr.type = payByEphemeralAccount
  · -- the ephemeral-account handler never panics, and a kind is not both
    have hne : payByEphemeralAccount ≠ payByContract := by decide
    simp only [h1, if_true, hne, false_and, iff_false, not_exists]
    exact staticPayByEphemeralAccount_no_panic h s1
  by_cases h2 : pr.type = payByContract
  · simp only [h1, h2, if_true, if_false, true_and]
    exact managedPayByContract_panics_iff hsig h s1
  · simp [h1, h2, Outcome.fail]

/-- The toy collaborators co-sign with both signatures. -/
theorem singleBalance_signsBoth : SignsBoth singleBalance := fun _ _ _ _ h => by
  cases h
  exact Nat.le_refl 2

/-- With the toy collaborators, the scenario's payment with a third valid-proof value panics,
    and it is the one case the characterization names. -/
theorem scenario_panics_only_on_long_request :
    let s : Stream := ⟨[.paymentRequest ⟨payByContract⟩,
      .payByContractRequest ⟨7, 8, [1500, 1500, 1], [500, 300, 300], []⟩], true, []⟩
    SignsBoth singleBalance ∧
      ((∃ reason, (processPayment singleBalance (scenarioHost 0) s).result =
          .error (.panic reason)) ↔
        ∃ pr s1 pbcr s2 so c, s.rpcRead Message.asPaymentRequest = .ok (pr, s1) ∧
          pr.type = payByContract ∧ s1.rpcRead Message.asPayByContractRequest = .ok (pbcr, s2) ∧
          loadRevision (scenarioHost 0) pbcr.contractID = .ok (so, c) ∧
          (c.newValidProofOutputs.length < pbcr.newValidProofValues.length ∨
            c.newMissedProofOutputs.length < pbcr.newMissedProofValues.length)) :=
  ⟨singleBalance_signsBoth,
    processPayment_panics_iff singleBalance singleBalance_signsBoth (scenarioHost 0) _⟩

end FormalSia.Host
