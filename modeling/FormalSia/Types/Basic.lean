/-
  FormalSia.Types.Basic — the values shared by the host, the MDM and the renter.

  Sector roots, contract ids and unlock hashes are 32-byte hashes (`crypto.Hash`), byte
  strings are byte lists, currencies (`types.Currency`, unbounded big integers) are `Nat`,
  and block heights and revision numbers are `uint64`.

  The file-contract revision keeps every field `revisionFromRequest` copies.  The payout
  accessors (`ValidHostPayout`, `MissedHostOutput`, …) live in the `types` package, outside
  the sources; they index the output vectors in the layout the spec fixes (valid outputs:
  renter, host; missed outputs: renter, host, void), and a missing index is `none`, where
  Go panics.

  Errors follow `gitlab.com/NebulousLabs/errors`: an error is the list of texts it carries,
  outermost context first, so that `AddContext` prepends, `Compose` concatenates and
  `Contains` is membership.
-/
import Mathlib.Data.List.Basic

namespace FormalSia

/-- `crypto.Hash`: a 32-byte hash. -/
abbrev Hash := BitVec 256

/-- A Go `[]byte`. -/
abbrev Bytes := List UInt8

/-- `types.BlockHeight`. -/
abbrev BlockHeight := UInt64

/-- A `uint64` increment that stays below `2 ^ 64` does not wrap. -/
theorem uint64_toNat_add_one (x : UInt64) (hx : x.toNat + 1 < UInt64.size) :
    (x + 1).toNat = x.toNat + 1 := by
  show (x.toBitVec + (1 : UInt64).toBitVec).toNat = _
  rw [BitVec.toNat_add]
  exact Nat.mod_eq_of_lt hx

/-- A `uint64` converted to a natural number and back is itself. -/
theorem uint64_ofNat_toNat (h : UInt64) : UInt64.ofNat h.toNat = h :=
  UInt64.toNat.inj (UInt64.toNat_ofNat_of_lt h.toNat_lt_size)

/-! ## §1. Errors -/

/-- An error of `gitlab.com/NebulousLabs/errors`, outermost context first. -/
abbrev Error := List String

/-- `errors.AddContext(err, context)` on a non-nil error. -/
def Error.addContext (err : Error) (context : String) : Error := context :: err

/-- `errors.Compose(a, b)`: nil when both are, else the texts of both. -/
def Error.compose : Option Error → Option Error → Option Error
  | none, b => b
  | some a, none => some a
  | some a, some b => some (a ++ b)

/-- `errors.Contains(err, target)` for a sentinel error of one text. -/
def Error.contains (err : Error) (target : String) : Bool := List.contains err target

/-! ## §2. File-contract revisions and transactions -/

/-- `types.SiacoinOutput`. -/
structure SiacoinOutput where
  value : Nat
  unlockHash : Hash
  deriving DecidableEq, Repr

/-- `types.UnlockConditions`. -/
structure UnlockConditions where
  timelock : BlockHeight
  publicKeys : List Bytes
  signaturesRequired : UInt64
  deriving DecidableEq, Repr

/-- `types.FileContractRevision`. -/
structure FileContractRevision where
  parentID : Hash
  unlockConditions : UnlockConditions
  newRevisionNumber : UInt64
  newFileSize : UInt64
  newFileMerkleRoot : Hash
  newWindowStart : BlockHeight
  newWindowEnd : BlockHeight
  newValidProofOutputs : List SiacoinOutput
  newMissedProofOutputs : List SiacoinOutput
  newUnlockHash : Hash
  deriving DecidableEq, Repr

/-- `types.CoveredFields`, reduced to the revision indices it covers. -/
structure CoveredFields where
  fileContractRevisions : List UInt64
  deriving DecidableEq, Repr

/-- `types.TransactionSignature`. -/
structure TransactionSignature where
  parentID : Hash
  coveredFields : CoveredFields
  publicKeyIndex : UInt64
  signature : Bytes
  deriving DecidableEq, Repr

/-- `types.Transaction`, reduced to the revisions and signatures a revision set holds. -/
structure Transaction where
  fileContractRevisions : List FileContractRevision
  transactionSignatures : List TransactionSignature
  deriving DecidableEq, Repr

namespace FileContractRevision

/-- Modelled from the spec: `ValidRenterPayout`, the value of valid output 0. -/
def validRenterPayout (r : FileContractRevision) : Option Nat :=
  r.newValidProofOutputs[0]?.map (·.value)

/-- Modelled from the spec: `ValidHostPayout`, the value of valid output 1. -/
def validHostPayout (r : FileContractRevision) : Option Nat :=
  r.newValidProofOutputs[1]?.map (·.value)

/-- Modelled from the spec: `MissedHostOutput`, missed output 1. -/
def missedHostOutput (r : FileContractRevision) : Option SiacoinOutput :=
  r.newMissedProofOutputs[1]?

/-- Modelled from the spec: `MissedVoidOutput`, missed output 2. -/
def missedVoidOutput (r : FileContractRevision) : Option SiacoinOutput :=
  r.newMissedProofOutputs[2]?

end FileContractRevision

end FormalSia
