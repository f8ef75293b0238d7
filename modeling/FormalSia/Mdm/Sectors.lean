/-
  FormalSia.Mdm.Sectors — the program cache of the MDM (`sectors`).

  A running program stages its sector changes in a cache over the contract's root list:
  `sectorsGained` maps the root of every appended sector to its bytes, `sectorsRemoved` is
  the set of roots whose sectors the commit deletes, and `merkleRoots` is the program's view
  of the root list.  Go maps become total functions (`Hash → Option Bytes`, `Hash → Bool`),
  so that a map write or a `delete` is a `Function.update`.

  `modules.SectorSize`, `crypto.MerkleRoot` and `cachedMerkleRoot` are defined outside the
  sources: they are the fields of `SectorEnv`.  A program run is a list of `appendSector`
  and `dropSectors` calls folded over `newSectors`; a call that errors returns before it
  writes, so it leaves the cache as it was.

  The commit is not in the sources either; `commit` follows the spec: delete every root in
  `sectorsRemoved` from the store, then write every sector in `sectorsGained`.  So is
  `swapSectors`, which the `SwapSector` instruction calls: it exchanges two roots of the list.
-/
import FormalSia.Types.Basic
import Mathlib.Logic.Function.Basic

namespace FormalSia.Mdm

/-- The constants and hash functions the cache uses, all defined outside the sources. -/
structure SectorEnv where
  /-- `modules.SectorSize`. -/
  sectorSize : Nat
  /-- `crypto.MerkleRoot`. -/
  merkleRoot : Bytes → Hash
  /-- `cachedMerkleRoot`: the Merkle root over a list of sector roots. -/
  cachedMerkleRoot : List Hash → Hash

/-- `sectors`: the program cache. -/
@[ext] structure Sectors where
  sectorsRemoved : Hash → Bool
  sectorsGained : Hash → Option Bytes
  merkleRoots : List Hash

/-- `newSectors`: an empty cache over the initial list of sector roots. -/
def newSectors (roots : List Hash) : Sectors :=
  { sectorsRemoved := fun _ => false, sectorsGained := fun _ => none, merkleRoots := roots }

variable (env : SectorEnv)

/-! ## §1. The cache operations -/

/-- `sectors.appendSector`: stage a full sector and push its root. -/
def appendSector (s : Sectors) (sectorData : Bytes) : Except String (Hash × Sectors) :=
  if sectorData.length ≠ env.sectorSize then
    .error ("trying to append data of length " ++ toString sectorData.length)
  else
    let newRoot := env.merkleRoot sectorData
    let sectorsGained := Function.update s.sectorsGained newRoot (some sectorData)
    let sectorsRemoved :=
      if s.sectorsRemoved newRoot then Function.update s.sectorsRemoved newRoot false
      else s.sectorsRemoved
    let merkleRoots := s.merkleRoots ++ [newRoot]
    .ok (env.cachedMerkleRoot merkleRoots, ⟨sectorsRemoved, sectorsGained, merkleRoots⟩)

/-- One pass of the `dropSectors` loop: a gained root is forgotten, any other root is
    marked removed. -/
def dropRoot (s : Sectors) (droppedRoot : Hash) : Sectors :=
  if (s.sectorsGained droppedRoot).isSome then
    { s with sectorsGained := Function.update s.sectorsGained droppedRoot none }
  else
    { s with sectorsRemoved := Function.update s.sectorsRemoved droppedRoot true }

/-- `sectors.dropSectors`: pop the last `numSectorsDropped` roots. -/
def dropSectors (s : Sectors) (numSectorsDropped : Nat) : Except String (Hash × Sectors) :=
  let oldNumSectors := s.merkleRoots.length
  if numSectorsDropped > oldNumSectors then
    .error ("trying to drop " ++ toString numSectorsDropped ++
      " sectors which is more than the amount of sectors (" ++ toString oldNumSectors ++ ")")
  else
    let newNumSectors := oldNumSectors - numSectorsDropped
    let droppedRoots := s.merkleRoots.drop newNumSectors
    let s' := droppedRoots.foldl dropRoot { s with merkleRoots := s.merkleRoots.take newNumSectors }
    .ok (env.cachedMerkleRoot s'.merkleRoots, s')

/-- Modelled from the spec: `sectors.swapSectors`, which exchanges the roots at two positions
    of the list, both of them in it (the same position is a no-op), and returns the new
    list root. -/
def swapSectors (s : Sectors) (offset1 offset2 : UInt64) : Except String (Hash × Sectors) :=
  let roots := s.merkleRoots
  if roots.length ≤ offset1.toNat ∨ roots.length ≤ offset2.toNat then
    .error "offset out of bounds"
  else
    let merkleRoots := if offset1 = offset2 then roots
      else (roots.set offset1.toNat (roots.getD offset2.toNat 0)).set offset2.toNat
        (roots.getD offset1.toNat 0)
    .ok (env.cachedMerkleRoot merkleRoots, { s with merkleRoots := merkleRoots })

/-- `sectors.hasSector`: a linear scan of the roots. -/
def hasSector (s : Sectors) (sectorRoot : Hash) : Bool :=
  s.merkleRoots.contains sectorRoot

/-- `sectors.readSector`: the gained sector if there is one, else the host's copy. -/
def readSector (hostReadSector : Hash → Except String Bytes) (s : Sectors)
    (sectorRoot : Hash) : Except String Bytes :=
  if !hasSector s sectorRoot then .error "root not found in list of roots"
  else
    match s.sectorsGained sectorRoot with
    | some data => .ok data
    | none => hostReadSector sectorRoot

/-- Modelled from the spec: the program commit applies the deletions of `sectorsRemoved`
    to the sector store, then the writes of `sectorsGained`. -/
def commit (store : Hash → Option Bytes) (s : Sectors) : Hash → Option Bytes := fun r =>
  match s.sectorsGained r with
  | some d => some d
  | none => if s.sectorsRemoved r then none else store r

theorem commit_isSome (store : Hash → Option Bytes) (s : Sectors) (r : Hash) :
    (commit store s r).isSome =
      ((s.sectorsGained r).isSome || (!s.sectorsRemoved r && (store r).isSome)) := by
  unfold commit
  cases s.sectorsGained r <;> cases s.sectorsRemoved r <;> rfl

/-! ## §2. Program runs -/

/-- A cache call of a program. -/
inductive Op where
  | appendSector (sectorData : Bytes)
  | dropSectors (numSectorsDropped : Nat)

/-- The cache call an `Op` makes. -/
def Op.call : Op → Sectors → Except String (Hash × Sectors)
  | .appendSector d, s => Mdm.appendSector env s d
  | .dropSectors n, s => Mdm.dropSectors env s n

/-- One call; a failed call leaves the cache unchanged. -/
def step (s : Sectors) (op : Op) : Sectors :=
  match Op.call env op s with
  | .ok (_, s') => s'
  | .error _ => s

/-- A run of calls. -/
def run (s : Sectors) (ops : List Op) : Sectors := ops.foldl (step env) s

@[simp] theorem run_nil (s : Sectors) : run env s [] = s := rfl

@[simp] theorem run_cons (s : Sectors) (op : Op) (ops : List Op) :
    run env s (op :: ops) = run env (step env s op) ops := rfl

theorem run_append (s : Sectors) (ops ops' : List Op) :
    run env s (ops ++ ops') = run env (run env s ops) ops' := List.foldl_append _ _ _ _

/-! ## §3. What one call does -/

/-- The state an accepted `appendSector` leaves. -/
def appended (s : Sectors) (sectorData : Bytes) : Sectors :=
  { sectorsRemoved := Function.update s.sectorsRemoved (env.merkleRoot sectorData) false
    sectorsGained := Function.update s.sectorsGained (env.merkleRoot sectorData) (some sectorData)
    merkleRoots := s.merkleRoots ++ [env.merkleRoot sectorData] }

/-- The state an accepted `dropSectors` leaves. -/
def dropped (s : Sectors) (n : Nat) : Sectors :=
  (s.merkleRoots.drop (s.merkleRoots.length - n)).foldl dropRoot
    { s with merkleRoots := s.merkleRoots.take (s.merkleRoots.length - n) }

theorem step_appendSector (s : Sectors) (sectorData : Bytes) :
    step env s (.appendSector sectorData) =
      if sectorData.length = env.sectorSize then appended env s sectorData else s := by
  by_cases h : sectorData.length = env.sectorSize
  · have hrm : (if s.sectorsRemoved (env.merkleRoot sectorData) = true then
        Function.update s.sectorsRemoved (env.merkleRoot sectorData) false
        else s.sectorsRemoved) = Function.update s.sectorsRemoved (env.merkleRoot sectorData) false := by
      funext x
      by_cases hx : x = env.merkleRoot sectorData <;> split <;> simp_all [Function.update_apply]
    simp [step, Op.call, appendSector, h, appended, hrm]
  · simp [step, Op.call, appendSector, h]

theorem step_dropSectors (s : Sectors) (n : Nat) :
    step env s (.dropSectors n) = if n ≤ s.merkleRoots.length then dropped s n else s := by
  by_cases h : n ≤ s.merkleRoots.length
  · simp [step, Op.call, dropSectors, Nat.not_lt.mpr h, h, dropped]
  · simp [step, Op.call, dropSectors, h, Nat.lt_of_not_le h]

/-! ## §4. The drop loop -/

theorem dropRoot_merkleRoots (s : Sectors) (x : Hash) :
    (dropRoot s x).merkleRoots = s.merkleRoots := by
  unfold dropRoot; split <;> rfl

theorem dropRoot_sectorsGained (s : Sectors) (x r : Hash) :
    (dropRoot s x).sectorsGained r = if r = x then none else s.sectorsGained r := by
  unfold dropRoot
  split
  · simp [Function.update_apply]
  · rename_i h
    by_cases hr : r = x
    · subst hr; simpa using h
    · simp [hr]

theorem dropRoot_sectorsRemoved_of_ne (s : Sectors) {x r : Hash} (hr : r ≠ x) :
    (dropRoot s x).sectorsRemoved r = s.sectorsRemoved r := by
  unfold dropRoot; split <;> simp [Function.update_apply, hr]

theorem foldl_dropRoot_merkleRoots (l : List Hash) (s : Sectors) :
    (l.foldl dropRoot s).merkleRoots = s.merkleRoots := by
  induction l generalizing s with
  | nil => rfl
  | cons x xs ih => simp [ih, dropRoot_merkleRoots]

/-- After the loop, exactly the dropped roots are gone from `sectorsGained`. -/
theorem foldl_dropRoot_sectorsGained (l : List Hash) (s : Sectors) (r : Hash) :
    (l.foldl dropRoot s).sectorsGained r = if r ∈ l then none else s.sectorsGained r := by
  induction l generalizing s with
  | nil => simp
  | cons x xs ih =>
    by_cases hr : r = x <;> by_cases hm : r ∈ xs <;> simp_all [ih, dropRoot_sectorsGained]

/-- The loop only marks dropped roots as removed. -/
theorem foldl_dropRoot_sectorsRemoved_of_not_mem {l : List Hash} {r : Hash} (hr : r ∉ l)
    (s : Sectors) : (l.foldl dropRoot s).sectorsRemoved r = s.sectorsRemoved r := by
  induction l generalizing s with
  | nil => rfl
  | cons x xs ih =>
    simp only [List.mem_cons, not_or] at hr
    simp [ih hr.2, dropRoot_sectorsRemoved_of_ne s hr.1]

/-- The loop of `dropSectors` over distinct roots marks a dropped root removed exactly when
    it was not gained. -/
theorem foldl_dropRoot_sectorsRemoved_of_mem {l : List Hash} (hl : l.Nodup) {r : Hash}
    (hr : r ∈ l) (s : Sectors) :
    (l.foldl dropRoot s).sectorsRemoved r = ((s.sectorsGained r).isNone || s.sectorsRemoved r) := by
  induction l generalizing s with
  | nil => cases hr
  | cons x xs ih =>
    rw [List.foldl_cons]
    by_cases hx : r = x
    · subst hx
      rw [foldl_dropRoot_sectorsRemoved_of_not_mem (List.nodup_cons.mp hl).1]
      cases hg : s.sectorsGained r <;> simp [dropRoot, hg]
    · have hxs : r ∈ xs := (List.mem_cons.mp hr).resolve_left hx
      rw [ih (List.nodup_cons.mp hl).2 hxs, dropRoot_sectorsGained, if_neg hx,
        dropRoot_sectorsRemoved_of_ne s hx]

/-- The root list after an accepted drop. -/
theorem dropped_merkleRoots (s : Sectors) (n : Nat) :
    (dropped s n).merkleRoots = s.merkleRoots.take (s.merkleRoots.length - n) := by
  simp [dropped, foldl_dropRoot_merkleRoots]

/-- The gained map after an accepted drop: the dropped roots are forgotten. -/
theorem dropped_sectorsGained_apply (s : Sectors) (n : Nat) (r : Hash) :
    (dropped s n).sectorsGained r =
      if r ∈ s.merkleRoots.drop (s.merkleRoots.length - n) then none
      else s.sectorsGained r := by
  simp [dropped, foldl_dropRoot_sectorsGained]

/-- The removed set after an accepted drop of distinct roots: a dropped root is marked
    removed unless it was gained. -/
theorem dropped_sectorsRemoved_apply (s : Sectors) (n : Nat) (hnd : s.merkleRoots.Nodup)
    (r : Hash) :
    (dropped s n).sectorsRemoved r =
      if r ∈ s.merkleRoots.drop (s.merkleRoots.length - n) then
        ((s.sectorsGained r).isNone || s.sectorsRemoved r)
      else s.sectorsRemoved r := by
  split
  · exact foldl_dropRoot_sectorsRemoved_of_mem (hnd.sublist (List.drop_sublist _ _)) ‹_› _
  · exact foldl_dropRoot_sectorsRemoved_of_not_mem ‹_› _

end FormalSia.Mdm
