/-
  FormalSia.Host.Payment — the host's payment processing (`host/payment.go`).

  `ProcessPayment` reads a `PaymentRequest` from the renter's stream and dispatches on its
  type: an ephemeral-account payment withdraws from the account manager, a contract payment
  builds a payment revision from the stored one, verifies it, co-signs it and writes it to
  the storage obligation.  Each ends by writing its response to the stream.

  The model threads the host's state (`Host`: storage obligations by contract id, the
  account manager's state, the block height) and the stream (`Stream`: the messages the
  renter sent, whether the host's writes still go through, what the host wrote) through
  the Go code's sequence of calls, one `match` for each `if err != nil { return }`.  What
  the code calls outside `payment.go` is a field of `Collaborators`, so that every outcome
  of those calls is a choice of collaborators; what it reads outside the sources
  (`recentRevision`, `verifyPaymentRevision`, the payment kinds) is modelled from the spec.
  A Go runtime panic (an index out of range) is the fault `Fault.panic`.

  The obligation lock plays no part here: this is one handler running alone.
  `FormalSia.Host.ObligationLock` interleaves handlers.
-/
import FormalSia.Types.Basic
import Mathlib.Logic.Function.Basic

namespace FormalSia.Host

/-- `modules.AccountID`; contract payments report the empty string. -/
abbrev AccountID := String

/-! ## §1. Wire messages and the stream -/

/-- `modules.PaymentRequest`. -/
structure PaymentRequest where
  type : UInt8
  deriving DecidableEq, Repr

/-- `modules.WithdrawalMessage`. -/
structure WithdrawalMessage where
  account : AccountID
  expiry : BlockHeight
  amount : Nat
  nonce : UInt64
  deriving DecidableEq, Repr

/-- `modules.PayByEphemeralAccountRequest`. -/
structure PayByEphemeralAccountRequest where
  message : WithdrawalMessage
  signature : Bytes
  priority : Int
  deriving DecidableEq, Repr

/-- `modules.PayByEphemeralAccountResponse`. -/
structure PayByEphemeralAccountResponse where
  amount : Nat
  deriving DecidableEq, Repr

/-- `modules.PayByContractRequest`. -/
structure PayByContractRequest where
  contractID : Hash
  newRevisionNumber : UInt64
  newValidProofValues : List Nat
  newMissedProofValues : List Nat
  signature : Bytes
  deriving DecidableEq, Repr

/-- `modules.PayByContractResponse`: the host's 64-byte revision signature. -/
structure PayByContractResponse where
  signature : Bytes
  deriving DecidableEq, Repr

/-- A message on a payment stream. -/
inductive Message where
  | paymentRequest (pr : PaymentRequest)
  | payByEphemeralAccountRequest (req : PayByEphemeralAccountRequest)
  | payByEphemeralAccountResponse (resp : PayByEphemeralAccountResponse)
  | payByContractRequest (req : PayByContractRequest)
  | payByContractResponse (resp : PayByContractResponse)
  deriving DecidableEq, Repr

/-- A `siamux.Stream` as the host sees it. -/
structure Stream where
  /-- What the renter sent, in order. -/
  incoming : List Message
  /-- Whether the host's writes still reach the renter. -/
  writable : Bool
  /-- What the host wrote, in order. -/
  outgoing : List Message
  deriving DecidableEq, Repr

/-- `modules.RPCRead`: decode the next message as the expected kind. -/
def Stream.rpcRead {α : Type} (decode : Message → Option α) (s : Stream) :
    Except Error (α × Stream) :=
  match s.incoming with
  | [] => .error ["EOF"]
  | m :: rest =>
    match decode m with
    | some a => .ok (a, { s with incoming := rest })
    | none => .error ["could not decode message"]

/-- `modules.RPCWrite`. -/
def Stream.rpcWrite (m : Message) (s : Stream) : Except Error Stream :=
  if s.writable then .ok { s with outgoing := s.outgoing ++ [m] } else .error ["stream closed"]

/-- Decoding a `PaymentRequest`. -/
def Message.asPaymentRequest : Message → Option PaymentRequest
  | .paymentRequest pr => some pr
  | _ => none

/-- Decoding a `PayByEphemeralAccountRequest`. -/
def Message.asPayByEphemeralAccountRequest : Message → Option PayByEphemeralAccountRequest
  | .payByEphemeralAccountRequest req => some req
  | _ => none

/-- Decoding a `PayByContractRequest`. -/
def Message.asPayByContractRequest : Message → Option PayByContractRequest
  | .payByContractRequest req => some req
  | _ => none

/-- Modelled from the spec: `modules.PayByEphemeralAccount`, payment kind 1. -/
def payByEphemeralAccount : UInt8 := 1

/-- Modelled from the spec: `modules.PayByContract`, payment kind 2. -/
def payByContract : UInt8 := 2

/-- Modelled from the spec: `modules.ErrUnknownPaymentMethod`. -/
def errUnknownPaymentMethod : String := "unknown payment method"

/-! ## §2. Host state and collaborators -/

/-- `storageObligation`, reduced to the revision transaction set the payment code writes. -/
structure StorageObligation where
  revisionTransactionSet : List Transaction
  deriving DecidableEq, Repr

/-- Modelled from the spec: `storageObligation.recentRevision`, the revision of the last
    transaction of the revision transaction set. -/
def StorageObligation.recentRevision (so : StorageObligation) :
    Except Error FileContractRevision :=
  match so.revisionTransactionSet.getLast? with
  | some txn =>
    match txn.fileContractRevisions.head? with
    | some rev => .ok rev
    | none => .error ["revision transaction holds no revision"]
  | none => .error ["storage obligation holds no revision"]

/-- `Host`, reduced to the state that payments read and write. -/
structure HostState (Accounts : Type) where
  /-- The storage obligations, by file contract id. -/
  obligations : Hash → Option StorageObligation
  /-- The ephemeral-account manager's state. -/
  accounts : Accounts
  /-- `h.BlockHeight()`. -/
  blockHeight : BlockHeight

/-- The calls `payment.go` makes outside the sources, each with every outcome it may have. -/
structure Collaborators (Accounts : Type) where
  /-- `accountManager.callWithdraw`: the account state after the withdrawal, or its error. -/
  callWithdraw : Accounts → WithdrawalMessage → Bytes → Int → Except Error Accounts
  /-- `createRevisionSignature`: the revision transaction the host signed. -/
  createRevisionSignature :
    FileContractRevision → TransactionSignature → BlockHeight → Except Error Transaction
  /-- `managedModifyStorageObligation`: `none` when the write succeeds, else its error. -/
  modifyStorageObligation : StorageObligation → Option Error

/-- `modules.PaymentDetails` (`paymentDetails`). -/
structure PaymentDetails where
  account : AccountID
  amount : Nat
  addedCollateral : Nat
  deriving DecidableEq, Repr

/-- How a handler call ends when it does not return payment details. -/
inductive Fault where
  /-- A returned error. -/
  | error (err : Error)
  /-- A Go runtime panic. -/
  | panic (reason : String)
  deriving DecidableEq, Repr

/-- What a payment call returns, and the host and stream it leaves. -/
structure Outcome (Accounts : Type) where
  result : Except Fault PaymentDetails
  host : HostState Accounts
  stream : Stream

/-- `newPaymentDetails`. -/
def newPaymentDetails (account : AccountID) (amountPaid addedCollateral : Nat) :
    PaymentDetails :=
  ⟨account, amountPaid, addedCollateral⟩

/-! ## §3. Building and verifying the payment revision -/

/-- The loop of `revisionFromRequest` over one output vector: the `i`-th value with the
    `i`-th unlock hash of the recent revision; `none` where Go indexes past the end. -/
def outputsFromValues : List Nat → List SiacoinOutput → Option (List SiacoinOutput)
  | [], _ => some []
  | _ :: _, [] => none
  | v :: vs, o :: os => (outputsFromValues vs os).map (⟨v, o.unlockHash⟩ :: ·)

/-- `revisionFromRequest`: a copy of the recent revision with the request's revision number
    and output values; `none` is the panic of an index past the recent outputs. -/
def revisionFromRequest (recent : FileContractRevision) (pbcr : PayByContractRequest) :
    Option FileContractRevision :=
  match outputsFromValues pbcr.newValidProofValues recent.newValidProofOutputs,
    outputsFromValues pbcr.newMissedProofValues recent.newMissedProofOutputs with
  | some valid, some missed =>
    some { recent with
      newRevisionNumber := pbcr.newRevisionNumber
      newValidProofOutputs := valid
      newMissedProofOutputs := missed }
  | _, _ => none

/-- `signatureFromRequest`: the renter's signature over revision 0 of the transaction. -/
def signatureFromRequest (recent : FileContractRevision) (pbcr : PayByContractRequest) :
    TransactionSignature :=
  { parentID := recent.parentID
    coveredFields := ⟨[0]⟩
    publicKeyIndex := 0
    signature := pbcr.signature }

/-- Modelled from the spec: `verifyPaymentRevision`, the checks of §4.F of a payment
    revision against the current one (the expected exchange is the least the renter must
    be debited). -/
def verifyPaymentRevision (current payment : FileContractRevision) (blockHeight : BlockHeight)
    (expectedExchange : Nat) : Except String Unit :=
  if payment.newRevisionNumber ≤ current.newRevisionNumber then .error "bad revision number"
  else if payment.newValidProofOutputs.length ≠ current.newValidProofOutputs.length ∨
      payment.newMissedProofOutputs.length ≠ current.newMissedProofOutputs.length then
    .error "output-count mismatch"
  else if payment.newValidProofOutputs.map (·.unlockHash) ≠
        current.newValidProofOutputs.map (·.unlockHash) ∨
      payment.newMissedProofOutputs.map (·.unlockHash) ≠
        current.newMissedProofOutputs.map (·.unlockHash) then
    .error "recipient changed"
  else
    match current.validRenterPayout, payment.validRenterPayout, current.validHostPayout,
      payment.validHostPayout, current.missedHostOutput, payment.missedHostOutput,
      current.missedVoidOutput, payment.missedVoidOutput with
    | some cr, some pr, some ch, some ph, some cm, some pm, some cv, some pv =>
      if cr < pr ∨ ph < ch ∨ cm.value < pm.value ∨ pv.value < cv.value then .error "underflow"
      else if cr - pr < expectedExchange then .error "renter not debited"
      else if ph - ch ≠ cr - pr then .error "host not credited equally"
      else if cm.value - pm.value ≠ pv.value - cv.value then
        .error "host missed output did not decrease by the collateral moved to the void"
      else if current.newWindowEnd < blockHeight then .error "contract expired"
      else .ok ()
    | _, _, _, _, _, _, _, _ => .error "output-count mismatch"

/-- `verifyPayByContractRevision`: verify, then the amount moved to the host and the
    collateral moved to the void. -/
def verifyPayByContractRevision (current payment : FileContractRevision)
    (blockHeight : BlockHeight) : Except Fault (Nat × Nat) :=
  match verifyPaymentRevision current payment blockHeight 0 with
  | .error e => .error (.error [e])
  | .ok () =>
    match payment.validHostPayout, current.validHostPayout, current.missedHostOutput,
      payment.missedHostOutput with
    | some ph, some ch, some cm, some pm => .ok (ph - ch, cm.value - pm.value)
    | _, _, _, _ => .error (.panic "index out of range")

/-- The revision transaction set the host stores: the payment revision with the renter's
    and the host's signatures. -/
def paymentTransactionSet (paymentRevision : FileContractRevision)
    (renterSignature hostSignature : TransactionSignature) : List Transaction :=
  [⟨[paymentRevision], [renterSignature, hostSignature]⟩]

/-- `crypto.Signature` from a signature's bytes: `copy` into 64 zero bytes. -/
def signatureBytes (sig : Bytes) : Bytes := (sig ++ List.replicate 64 0).take 64

/-! ## §4. The handlers -/

variable {Accounts : Type} (env : Collaborators Accounts)

/-- An error outcome that leaves the host and the stream as they are. -/
def Outcome.fail (h : HostState Accounts) (stream : Stream) (err : Error) : Outcome Accounts :=
  ⟨.error (.error err), h, stream⟩

/-- `staticPayByEphemeralAccount`. -/
def staticPayByEphemeralAccount (h : HostState Accounts) (stream : Stream) : Outcome Accounts :=
  match stream.rpcRead Message.asPayByEphemeralAccountRequest with
  | .error e => .fail h stream (e.addContext "Could not read PayByEphemeralAccountRequest")
  | .ok (req, stream) =>
    match env.callWithdraw h.accounts req.message req.signature req.priority with
    | .error e => .fail h stream (e.addContext "Withdraw failed")
    | .ok accounts =>
      let h := { h with accounts := accounts }
      match stream.rpcWrite (.payByEphemeralAccountResponse ⟨req.message.amount⟩) with
      | .error e => .fail h stream (e.addContext "Could not send PayByEphemeralAccountResponse")
      | .ok stream => ⟨.ok (newPaymentDetails req.message.account req.message.amount 0), h, stream⟩

/-- `managedGetStorageObligation` and `recentRevision`. -/
def loadRevision (h : HostState Accounts) (fcid : Hash) :
    Except Error (StorageObligation × FileContractRevision) :=
  match h.obligations fcid with
  | none => .error ["Could not fetch storage obligation", "storage obligation not found"]
  | some so =>
    match so.recentRevision with
    | .error e => .error (e.addContext "Could not find the most recent revision")
    | .ok rev => .ok (so, rev)

/-- A verified and co-signed payment, ready to be written to the obligation. -/
structure SignedPayment where
  revision : FileContractRevision
  amount : Nat
  collateral : Nat
  renterSignature : TransactionSignature
  hostSignature : TransactionSignature
  deriving DecidableEq, Repr

/-- From the current revision to the co-signed payment revision: `revisionFromRequest`,
    `verifyPayByContractRevision` against `bh`, the height `h.BlockHeight()` returned after the
    obligation was loaded, then `signatureFromRequest` and `createRevisionSignature` at
    `blockHeight`, the field `h.blockHeight` that the call reads again (the transaction's second
    signature is `txn.HostSignature()`). -/
def signPaymentAt (currentRevision : FileContractRevision) (pbcr : PayByContractRequest)
    (bh blockHeight : BlockHeight) : Except Fault SignedPayment :=
  match revisionFromRequest currentRevision pbcr with
  | none => .error (.panic "index out of range")
  | some paymentRevision =>
    match verifyPayByContractRevision currentRevision paymentRevision bh with
    | .error (.error e) => .error (.error (e.addContext "Invalid payment revision"))
    | .error (.panic r) => .error (.panic r)
    | .ok (amount, collateral) =>
      let renterSignature := signatureFromRequest currentRevision pbcr
      match env.createRevisionSignature paymentRevision renterSignature blockHeight with
      | .error e => .error (.error (e.addContext "Could not create revision signature"))
      | .ok txn =>
        match txn.transactionSignatures[1]? with
        | none => .error (.panic "index out of range")
        | some hostSignature =>
          .ok ⟨paymentRevision, amount, collateral, renterSignature, hostSignature⟩

/-- `signPaymentAt` where both reads of the block height return the same value, as they do
    when the host processes no block in between. -/
def signPayment (currentRevision : FileContractRevision) (pbcr : PayByContractRequest)
    (blockHeight : BlockHeight) : Except Fault SignedPayment :=
  signPaymentAt env currentRevision pbcr blockHeight blockHeight

/-- The storage obligation with its revision transaction set replaced by the payment's. -/
def SignedPayment.obligation (sp : SignedPayment) (so : StorageObligation) : StorageObligation :=
  { so with
    revisionTransactionSet := paymentTransactionSet sp.revision sp.renterSignature sp.hostSignature }

/-- The host after `managedModifyStorageObligation` wrote an obligation. -/
def HostState.withObligation (h : HostState Accounts) (fcid : Hash) (so : StorageObligation) :
    HostState Accounts :=
  { h with obligations := Function.update h.obligations fcid (some so) }

/-- `managedPayByContract`, run by one handler alone. -/
def managedPayByContract (h : HostState Accounts) (stream : Stream) : Outcome Accounts :=
  match stream.rpcRead Message.asPayByContractRequest with
  | .error e => .fail h stream (e.addContext "Could not read PayByContractRequest")
  | .ok (pbcr, stream) =>
    match loadRevision h pbcr.contractID with
    | .error e => .fail h stream e
    | .ok (so, currentRevision) =>
      match signPayment env currentRevision pbcr h.blockHeight with
      | .error f => ⟨.error f, h, stream⟩
      | .ok sp =>
        match env.modifyStorageObligation (sp.obligation so) with
        | some e => .fail h stream (e.addContext "Could not modify storage obligation")
        | none =>
          let h := h.withObligation pbcr.contractID (sp.obligation so)
          match stream.rpcWrite
              (.payByContractResponse ⟨signatureBytes sp.hostSignature.signature⟩) with
          | .error e => .fail h stream (e.addContext "Could not send PayByContractResponse")
          | .ok stream => ⟨.ok (newPaymentDetails "" sp.amount sp.collateral), h, stream⟩

/-- `ProcessPayment`. -/
def processPayment (h : HostState Accounts) (stream : Stream) : Outcome Accounts :=
  match stream.rpcRead Message.asPaymentRequest with
  | .error e => .fail h stream (e.addContext "Could not read payment request")
  | .ok (pr, stream) =>
    if pr.type = payByEphemeralAccount then staticPayByEphemeralAccount env h stream
    else if pr.type = payByContract then managedPayByContract env h stream
    else .fail h stream
      ["Could not handle payment method " ++ toString pr.type, errUnknownPaymentMethod]

end FormalSia.Host
