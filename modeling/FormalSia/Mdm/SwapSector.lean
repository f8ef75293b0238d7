/-
  FormalSia.Mdm.SwapSector — the `SwapSector` instruction of the MDM
  (`modules/host/mdm/instructionswapsector.go`).

  `Execute` fetches two offsets from the program data, orders them, swaps the two roots in the
  program's cache (`swapSectors`) and, when the renter asked for a proof, builds the proof
  ranges, one leaf each, and the leaf hashes the roots had before the swap.

  The program data, the instruction's output record, `errOutput`, `crypto.MerkleDiffProof` and
  `encoding.Marshal` are outside the sources.  The program data is what `Execute` reads: a
  `Uint64(offset)` call that returns a word or an error (the sources' `ProgramData.Uint64` is a
  stub, and the spec, §4.D, defines the buffer it stands for).  The output record and
  `errOutput` follow the spec (§5); the proof and the encoding are the fields of `ProofEnv`.  A
  Go runtime panic (an index out of range) is an `Except.error`; an error the instruction
  returns is an output that carries it.

  `staticDecodeSwapSectorInstruction` builds the instruction from a program's: it checks the
  specifier and the number of argument bytes against two constants of package `modules`, reads
  the two offsets as little-endian words and sets the proof flag when the byte after them is 1.
  The constants are the fields of `DecodeEnv`; the encoding it inverts follows the spec.

  Main results:
    * `execute_swapSector` — for every root list, every program data and every two offsets
      read from it within the list: the roots at the two offsets are exchanged and nothing
      else changes, the size is the previous output's, the proof covers the ranges the spec
      asks for (one when the offsets are equal) without overflow, the output encodes the
      roots at the ranges' starts before the swap, and reading the offsets the other way
      round gives the same result.
    * `staticDecodeSwapSectorInstruction_encode` — every instruction decodes back from its
      encoding.
    * `staticDecodeSwapSectorInstruction_ok_iff` — the decoder accepts exactly the
      instructions whose specifier, length and two words are the encoding's, whatever the
      flag byte and the bytes after it.
    * `staticDecodeSwapSectorInstruction_panics_iff` — it panics only when
      `RPCISwapSectorLen` is below the 17 bytes it reads.
-/
import FormalSia.Mdm.Sectors
import Mathlib.Algebra.Group.Nat.Basic
import Mathlib.Logic.Equiv.Basic

namespace FormalSia.Mdm

/-! ## §1. Values -/

/-- `crypto.ProofRange`: the leaves `[start, stop)` (`Start`, `End`). -/
structure ProofRange where
  start : UInt64
  stop : UInt64
  deriving DecidableEq, Repr

/-- Modelled from the spec: `output`, the response of an instruction (§5): the new contract
    size and Merkle root, the output bytes, the Merkle proof and the error. -/
structure Output where
  newSize : UInt64
  newMerkleRoot : Hash
  output : Bytes
  proof : List Hash
  error : Option String
  deriving DecidableEq, Repr

/-- Modelled from the spec: `errOutput(err)`, an output that carries only the error. -/
def errOutput (err : String) : Output := ⟨0, 0, [], [], some err⟩

/-- The calls of `Execute` outside the sources. -/
structure ProofEnv where
  /-- `crypto.MerkleDiffProof(ranges, numLeaves, nil, roots)`. -/
  merkleDiffProof : List ProofRange → UInt64 → List Hash → List Hash
  /-- `encoding.Marshal` of a `[]crypto.Hash`. -/
  marshal : List Hash → Bytes

/-- `instructionSwapSector`: whether the renter wants a proof (`staticMerkleProof`) and the
    offsets in the program data of the two sector indices. -/
structure InstructionSwapSector where
  staticMerkleProof : Bool
  sector1Offset : UInt64
  sector2Offset : UInt64
  deriving DecidableEq, Repr

/-! ## §2. `Execute` -/

variable (env : SectorEnv) (penv : ProofEnv)

/-- `instructionSwapSector.Execute` after the offsets are fetched and ordered: swap the roots,
    then read the two swapped roots (at each other's index) and build the proof. -/
def InstructionSwapSector.swapAndProve (i : InstructionSwapSector) (prevOutput : Output)
    (sectors : Sectors) (offset1 offset2 : UInt64) : Except String (Output × Sectors) :=
  match swapSectors env sectors offset1 offset2 with
  | .error err => .ok (errOutput err, sectors)
  | .ok (newMerkleRoot, sectors) =>
    let newRoots := sectors.merkleRoots
    match newRoots[offset2.toNat]?, newRoots[offset1.toNat]? with
    | some oldSector1, some oldSector2 =>
      let (proof, data) :=
        if i.staticMerkleProof then
          let ranges : List ProofRange := [⟨offset1, offset1 + 1⟩] ++
            if offset1 ≠ offset2 then [⟨offset2, offset2 + 1⟩] else []
          let oldLeafHashes := [oldSector1] ++ if offset1 ≠ offset2 then [oldSector2] else []
          (penv.merkleDiffProof ranges (UInt64.ofNat newRoots.length) sectors.merkleRoots,
            penv.marshal oldLeafHashes)
        else ([], [])
      .ok (⟨prevOutput.newSize, newMerkleRoot, data, proof, none⟩, sectors)
    | _, _ => .error "index out of range"

/-- `instructionSwapSector.Execute`: fetch the two offsets from the program data
    (`staticData.Uint64`) and order them, so that `offset1 ≤ offset2`. -/
def InstructionSwapSector.execute (i : InstructionSwapSector)
    (staticData : UInt64 → Except String UInt64) (prevOutput : Output) (sectors : Sectors) :
    Except String (Output × Sectors) :=
  match staticData i.sector1Offset with
  | .error err => .ok (errOutput err, sectors)
  | .ok offset1 =>
    match staticData i.sector2Offset with
    | .error err => .ok (errOutput err, sectors)
    | .ok offset2 =>
      let (offset1, offset2) :=
        if offset2 < offset1 then (offset2, offset1) else (offset1, offset2)
      i.swapAndProve env penv prevOutput sectors offset1 offset2

/-- The proof ranges the spec asks of a swap at `a` and `b` (§4.E): `[min, min + 1)`, then
    `[max, max + 1)` unless the offsets are equal. -/
def swapProofRanges (a b : UInt64) : List ProofRange :=
  ⟨min a b, min a b + 1⟩ :: if a = b then [] else [⟨max a b, max a b + 1⟩]

/-! ## §3. What `Execute` does -/

/-- `swapSectors` on two positions in the list exchanges their roots and changes nothing
    else. -/
theorem swapSectors_ok {s : Sectors} {o1 o2 : UInt64} (h1 : o1.toNat < s.merkleRoots.length)
    (h2 : o2.toNat < s.merkleRoots.length) :
    ∃ roots : List Hash,
      swapSectors env s o1 o2 =
        .ok (env.cachedMerkleRoot roots, { s with merkleRoots := roots }) ∧
      roots.length = s.merkleRoots.length ∧
      ∀ k, roots[k]? = s.merkleRoots[Equiv.swap o1.toNat o2.toNat k]? := by
  unfold swapSectors
  rw [if_neg (by omega)]
  refine ⟨_, rfl, by split <;> simp, fun k => ?_⟩
  split
  · subst_vars
    rw [Equiv.swap_self, Equiv.refl_apply]
  · rename_i hne
    have hne' : o1.toNat ≠ o2.toNat := fun h => hne (UInt64.toNat.inj h)
    simp only [List.getElem?_set, List.length_set, List.getD_eq_getElem?_getD,
      Equiv.swap_apply_def]
    by_cases hk1 : k = o1.toNat
    · subst hk1
      simp [Ne.symm hne', h1, h2, List.getElem?_eq_getElem]
    · by_cases hk2 : k = o2.toNat
      · subst hk2
        simp [hk1, h1, h2, List.getElem?_eq_getElem]
      · simp [hk1, hk2, Ne.symm hk1, Ne.symm hk2]

/-- `Execute` orders the offsets as `min` and `max`. -/
theorem ordered_offsets (a b : UInt64) :
    (if b < a then (b, a) else (a, b)) = (min a b, max a b) := by
  show _ = (if a ≤ b then a else b, if a ≤ b then b else a)
  by_cases h : a.toNat ≤ b.toNat
  · rw [if_neg (show ¬b < a from Nat.not_lt.mpr h), if_pos (show a ≤ b from h),
      if_pos (show a ≤ b from h)]
  · rw [if_pos (show b < a from Nat.lt_of_not_le h), if_neg (show ¬a ≤ b from h),
      if_neg (show ¬a ≤ b from h)]

/-- Once the reads return `a` and `b`, `Execute` swaps and proves at `min a b` and
    `max a b`. -/
theorem execute_of_reads {i : InstructionSwapSector}
    {staticData : UInt64 → Except String UInt64} {a b : UInt64} (prevOutput : Output)
    (s : Sectors) (ha : staticData i.sector1Offset = .ok a)
    (hb : staticData i.sector2Offset = .ok b) :
    i.execute env penv staticData prevOutput s =
      i.swapAndProve env penv prevOutput s (min a b) (max a b) := by
  simp only [InstructionSwapSector.execute, ha, hb, ordered_offsets]

/-- The smaller and the larger of two offsets. -/
theorem min_max_cases (a b : UInt64) :
    (min a b = a ∧ max a b = b ∧ a.toNat ≤ b.toNat) ∨
      (min a b = b ∧ max a b = a ∧ b.toNat < a.toNat) := by
  show ((if a ≤ b then a else b) = a ∧ _) ∨ ((if a ≤ b then a else b) = b ∧ _)
  by_cases h : a.toNat ≤ b.toNat
  · exact .inl ⟨if_pos h, if_pos h, h⟩
  · exact .inr ⟨if_neg h, if_neg h, Nat.lt_of_not_le h⟩

/-- Reading the offsets the other way round gives the same `min` and `max`. -/
theorem min_max_comm (a b : UInt64) : min b a = min a b ∧ max b a = max a b := by
  rcases min_max_cases a b with ⟨h1, h2, h⟩ | ⟨h1, h2, h⟩ <;>
    rcases min_max_cases b a with ⟨h3, h4, h'⟩ | ⟨h3, h4, h'⟩
  · -- both orders: the offsets are equal
    obtain rfl := UInt64.toNat.inj (Nat.le_antisymm h h')
    exact ⟨rfl, rfl⟩
  · exact ⟨h3.trans h1.symm, h4.trans h2.symm⟩
  · exact ⟨h3.trans h1.symm, h4.trans h2.symm⟩
  · omega

/-- `swapAndProve` at two positions `lo ≤ hi` of the list: the roots exchanged, the previous
    size and, when a proof is wanted, the proof over the ranges at `lo` and `hi` and the
    roots there before the swap. -/
theorem swapAndProve_ok (i : InstructionSwapSector) (prevOutput : Output) {s : Sectors}
    {lo hi : UInt64} (hle : lo.toNat ≤ hi.toNat) (hhi : hi.toNat < s.merkleRoots.length) :
    ∃ (roots : List Hash) (x y : Hash),
      s.merkleRoots[lo.toNat]? = some x ∧ s.merkleRoots[hi.toNat]? = some y ∧
      (∀ k, roots[k]? = s.merkleRoots[Equiv.swap lo.toNat hi.toNat k]?) ∧
      i.swapAndProve env penv prevOutput s lo hi =
        .ok (⟨prevOutput.newSize, env.cachedMerkleRoot roots,
          if i.staticMerkleProof then penv.marshal ([x] ++ if lo ≠ hi then [y] else []) else [],
          if i.staticMerkleProof then
            penv.merkleDiffProof
              ([⟨lo, lo + 1⟩] ++ if lo ≠ hi then [⟨hi, hi + 1⟩] else [])
              (UInt64.ofNat s.merkleRoots.length) roots
          else [], none⟩, { s with merkleRoots := roots }) := by
  obtain ⟨roots, hswap, hlen, hget⟩ := swapSectors_ok env (Nat.lt_of_le_of_lt hle hhi) hhi
  obtain ⟨x, hx⟩ : ∃ x, s.merkleRoots[lo.toNat]? = some x :=
    ⟨_, List.getElem?_eq_getElem (Nat.lt_of_le_of_lt hle hhi)⟩
  obtain ⟨y, hy⟩ : ∃ y, s.merkleRoots[hi.toNat]? = some y := ⟨_, List.getElem?_eq_getElem hhi⟩
  refine ⟨roots, x, y, hx, hy, hget, ?_⟩
  unfold InstructionSwapSector.swapAndProve
  rw [hswap]
  dsimp only
  rw [hget, hget, Equiv.swap_apply_right, Equiv.swap_apply_left, hx, hy, hlen]
  cases i.staticMerkleProof <;> rfl

/-- `Execute` of a `SwapSector` instruction, for every root list, every program data and every
    two offsets `a` and `b` read from it within the list. -/
theorem execute_swapSector {i : InstructionSwapSector}
    {staticData : UInt64 → Except String UInt64} {a b : UInt64} (prevOutput : Output)
    (s : Sectors) (ha : staticData i.sector1Offset = .ok a)
    (hb : staticData i.sector2Offset = .ok b) (haR : a.toNat < s.merkleRoots.length)
    (hbR : b.toNat < s.merkleRoots.length) (hR : s.merkleRoots.length < 2 ^ 64) :
    ∃ roots hashes : List Hash,
      i.execute env penv staticData prevOutput s =
        .ok (⟨prevOutput.newSize, env.cachedMerkleRoot roots,
          if i.staticMerkleProof then penv.marshal hashes else [],
          if i.staticMerkleProof then
            penv.merkleDiffProof (swapProofRanges a b) (UInt64.ofNat s.merkleRoots.length) roots
          else [], none⟩, { s with merkleRoots := roots }) ∧
      (∀ k, roots[k]? = s.merkleRoots[Equiv.swap a.toNat b.toNat k]?) ∧
      (∀ r ∈ swapProofRanges a b, r.stop.toNat = r.start.toNat + 1) ∧
      hashes.map some = (swapProofRanges a b).map (fun r => s.merkleRoots[r.start.toNat]?) ∧
      ∀ (i' : InstructionSwapSector) (staticData' : UInt64 → Except String UInt64),
        i'.staticMerkleProof = i.staticMerkleProof → staticData' i'.sector1Offset = .ok b →
        staticData' i'.sector2Offset = .ok a →
        i'.execute env penv staticData' prevOutput s = i.execute env penv staticData prevOutput s := by
  -- what `min a b` and `max a b` share with `a` and `b`, from one case split
  obtain ⟨hswap, hne, hle, hlt⟩ :
      Equiv.swap (min a b).toNat (max a b).toNat = Equiv.swap a.toNat b.toNat ∧
      (min a b ≠ max a b) = (a ≠ b) ∧ (min a b).toNat ≤ (max a b).toNat ∧
      (max a b).toNat < s.merkleRoots.length := by
    rcases min_max_cases a b with ⟨h1, h2, h⟩ | ⟨h1, h2, h⟩ <;> rw [h1, h2]
    · exact ⟨rfl, rfl, h, hbR⟩
    · exact ⟨Equiv.swap_comm _ _, propext ne_comm, h.le, haR⟩
  have hranges : swapProofRanges a b =
      [⟨min a b, min a b + 1⟩] ++ if min a b ≠ max a b then [⟨max a b, max a b + 1⟩] else [] := by
    simp only [hne]; by_cases h : a = b <;> simp [swapProofRanges, h]
  obtain ⟨roots, x, y, hx, hy, hget, hrun⟩ := swapAndProve_ok env penv i prevOutput hle hlt
  refine ⟨roots, [x] ++ if min a b ≠ max a b then [y] else [], ?_, hswap ▸ hget, ?_, ?_, ?_⟩
  · rw [execute_of_reads env penv prevOutput s ha hb, hrun, hranges]
  · -- no range end wraps: both starts are below the list's length
    intro r hr
    have hsize : UInt64.size = 2 ^ 64 := rfl
    rw [hranges] at hr
    split_ifs at hr <;> simp only [List.mem_append, List.mem_singleton, List.not_mem_nil,
      or_false] at hr <;> rcases hr with rfl | rfl <;>
      exact uint64_toNat_add_one _ (by omega)
  · rw [hranges]
    split_ifs <;> simp [hx, hy]
  · intro i' staticData' hflag ha' hb'
    rw [execute_of_reads env penv prevOutput s ha' hb', execute_of_reads env penv prevOutput s ha hb,
      (min_max_comm a b).1, (min_max_comm a b).2]
    simp only [InstructionSwapSector.swapAndProve, hflag]

/-- Spec scenario 4: `Swap(1, 1)` with a proof on the roots `[1, 2, 3]`, with program data whose
    every word is 1, a proof that lists each range's ends and an encoding that keeps each
    hash's low byte.  The roots stay, the proof has the one range `[1, 2)` and the output the
    one hash `2`. -/
theorem swap_equal_offsets_scenario :
    let env : SectorEnv := ⟨1, fun _ => 0, fun _ => 0⟩
    let penv : ProofEnv := ⟨fun ranges _ _ => ranges.flatMap fun r =>
      [BitVec.ofNat 256 r.start.toNat, BitVec.ofNat 256 r.stop.toNat],
      fun hs => hs.map fun h => h.toNat.toUInt8⟩
    let i : InstructionSwapSector := ⟨true, 0, 8⟩
    let data : UInt64 → Except String UInt64 := fun _ => .ok 1
    let s := newSectors [1, 2, 3]
    (data i.sector1Offset = .ok 1 ∧ data i.sector2Offset = .ok 1 ∧
      (1 : UInt64).toNat < s.merkleRoots.length ∧ s.merkleRoots.length < 2 ^ 64) ∧
    (∃ roots hashes : List Hash,
      i.execute env penv data ⟨0, 0, [], [], none⟩ s =
        .ok (⟨0, env.cachedMerkleRoot roots,
          if i.staticMerkleProof then penv.marshal hashes else [],
          if i.staticMerkleProof then
            penv.merkleDiffProof (swapProofRanges 1 1) (UInt64.ofNat s.merkleRoots.length) roots
          else [], none⟩, { s with merkleRoots := roots }) ∧
      (∀ k, roots[k]? = s.merkleRoots[Equiv.swap (1 : UInt64).toNat (1 : UInt64).toNat k]?) ∧
      (∀ r ∈ swapProofRanges 1 1, r.stop.toNat = r.start.toNat + 1) ∧
      hashes.map some = (swapProofRanges 1 1).map (fun r => s.merkleRoots[r.start.toNat]?) ∧
      ∀ (i' : InstructionSwapSector) (data' : UInt64 → Except String UInt64),
        i'.staticMerkleProof = i.staticMerkleProof → data' i'.sector1Offset = .ok 1 →
        data' i'.sector2Offset = .ok 1 →
        i'.execute env penv data' ⟨0, 0, [], [], none⟩ s =
          i.execute env penv data ⟨0, 0, [], [], none⟩ s) ∧
    i.execute env penv data ⟨0, 0, [], [], none⟩ s = .ok (⟨0, 0, [2], [1, 2], none⟩, s) :=
  ⟨⟨rfl, rfl, by decide, by decide⟩,
    execute_swapSector _ _ _ _ rfl rfl (by decide) (by decide) (by decide), rfl⟩


/-! ## §4. Decoding -/

/-- `types.Specifier`: the 16-byte tag of an instruction. -/
abbrev Specifier := BitVec 128

/-- `modules.Instruction`: the specifier and the argument bytes of an instruction of a
    program. -/
structure Instruction where
  specifier : Specifier
  args : Bytes
  deriving DecidableEq, Repr

/-- The constants of package `modules` the decoder reads, and the `%v` of a specifier. -/
structure DecodeEnv where
  /-- `modules.SpecifierSwapSector`. -/
  specifierSwapSector : Specifier
  /-- `modules.RPCISwapSectorLen`. -/
  rpcISwapSectorLen : Nat
  /-- `types.Specifier.String`, which `%v` prints. -/
  formatSpecifier : Specifier → String

/-- The value of bytes read least significant first. -/
def littleEndianValue : Bytes → Nat
  | [] => 0
  | b :: bs => b.toNat + 256 * littleEndianValue bs

/-- `binary.LittleEndian.Uint64(b)`: the first eight bytes of `b`, least significant first;
    fewer than eight bytes is a panic. -/
def littleEndianUint64 (b : Bytes) : Except String UInt64 :=
  if b.length < 8 then .error "index out of range"
  else .ok (UInt64.ofNat (littleEndianValue (b.take 8)))

/-- The Go slice expression `b[lo:hi]` for `lo ≤ hi`, on a slice whose capacity is its length:
    a panic when `hi` is past the end. -/
def sliceBytes (b : Bytes) (lo hi : Nat) : Except String Bytes :=
  if b.length < hi then .error "slice bounds out of range" else .ok ((b.take hi).drop lo)

variable (denv : DecodeEnv)

/-- `program.staticDecodeSwapSectorInstruction`: check the specifier and the number of
    argument bytes, then read the two offsets as little-endian words and the proof flag from
    the byte after them.  The inner `Except` is the error the decoder returns; the outer one
    is a panic. -/
def staticDecodeSwapSectorInstruction (instruction : Instruction) :
    Except String (Except String InstructionSwapSector) :=
  if instruction.specifier ≠ denv.specifierSwapSector then
    .ok (.error ("expected specifier " ++ denv.formatSpecifier denv.specifierSwapSector ++
      " but got " ++ denv.formatSpecifier instruction.specifier))
  else if instruction.args.length ≠ denv.rpcISwapSectorLen then
    .ok (.error ("expected instruction to have len " ++ toString denv.rpcISwapSectorLen ++
      " but was " ++ toString instruction.args.length))
  else do
    let sector1Offset ← littleEndianUint64 (← sliceBytes instruction.args 0 8)
    let sector2Offset ← littleEndianUint64 (← sliceBytes instruction.args 8 16)
    let some flag := instruction.args[16]? | .error "index out of range"
    return .ok ⟨flag == 1, sector1Offset, sector2Offset⟩

/-- Modelled from the spec: the `k` bytes of `n`, least significant first (§5: integers are
    fixed-width and little-endian on the wire). -/
def littleEndianBytes : Nat → Nat → Bytes
  | 0, _ => []
  | k + 1, n => UInt8.ofNat n :: littleEndianBytes k (n / 256)

/-- Modelled from the spec: a `SwapSector` instruction as a program carries it (§4.E, §5): the
    two offsets as fixed-width little-endian words, then the proof flag as 1 or 0 in the byte
    the decoder reads, padded with zeros to `RPCISwapSectorLen` bytes. -/
def encodeSwapSectorInstruction (i : InstructionSwapSector) : Instruction :=
  ⟨denv.specifierSwapSector,
    littleEndianBytes 8 i.sector1Offset.toNat ++ littleEndianBytes 8 i.sector2Offset.toNat ++
      (if i.staticMerkleProof then 1 else 0) :: List.replicate (denv.rpcISwapSectorLen - 17) 0⟩

/-! ## §5. What the decoder accepts -/

@[simp]
theorem littleEndianBytes_length (k n : Nat) : (littleEndianBytes k n).length = k := by
  induction k generalizing n with
  | zero => rfl
  | succ k ih => simp only [littleEndianBytes, List.length_cons, ih]

/-- The bytes of `n` read back are `n` modulo `256 ^ k`. -/
theorem littleEndianValue_bytes (k n : Nat) :
    littleEndianValue (littleEndianBytes k n) = n % 256 ^ k := by
  induction k generalizing n with
  | zero => simp [littleEndianBytes, littleEndianValue, Nat.mod_one]
  | succ k ih =>
    show n % 256 + 256 * littleEndianValue (littleEndianBytes k (n / 256)) = _
    rw [ih, Nat.pow_succ', Nat.mod_mul]

/-- `k` bytes are below `256 ^ k`. -/
theorem littleEndianValue_lt (bs : Bytes) : littleEndianValue bs < 256 ^ bs.length := by
  induction bs with
  | nil => simp [littleEndianValue]
  | cons b bs ih =>
    have hb : b.toNat < 256 := b.toNat_lt_size
    simp only [littleEndianValue, List.length_cons, Nat.pow_succ']
    omega

/-- `k` bytes are the bytes of their value. -/
theorem littleEndianBytes_value (bs : Bytes) :
    littleEndianBytes bs.length (littleEndianValue bs) = bs := by
  induction bs with
  | nil => rfl
  | cons b bs ih =>
    have hb : b.toNat < 256 := b.toNat_lt_size
    have hd : (b.toNat + 256 * littleEndianValue bs) / 256 = littleEndianValue bs := by omega
    simp only [List.length_cons, littleEndianBytes, littleEndianValue, hd, ih, List.cons.injEq,
      and_true]
    exact UInt8.toNat.inj (show (b.toNat + 256 * littleEndianValue bs) % 256 = b.toNat by omega)

/-- `Uint64` of eight or more bytes is the value of the first eight. -/
theorem littleEndianUint64_of_le {b : Bytes} (h : 8 ≤ b.length) :
    littleEndianUint64 b = .ok (UInt64.ofNat (littleEndianValue (b.take 8))) :=
  if_neg (Nat.not_lt.mpr h)

/-- The decoder on an instruction with the right specifier and length, when that length holds
    the two words and the flag. -/
theorem staticDecodeSwapSectorInstruction_of_valid {instruction : Instruction}
    (hspec : instruction.specifier = denv.specifierSwapSector)
    (hlen : instruction.args.length = denv.rpcISwapSectorLen) (h17 : 17 ≤ denv.rpcISwapSectorLen) :
    staticDecodeSwapSectorInstruction denv instruction =
      .ok (.ok ⟨instruction.args.getD 16 0 == 1,
        UInt64.ofNat (littleEndianValue (instruction.args.take 8)),
        UInt64.ofNat (littleEndianValue ((instruction.args.drop 8).take 8))⟩) := by
  have h16 : 16 < instruction.args.length := by omega
  unfold staticDecodeSwapSectorInstruction
  rw [if_neg (not_not.mpr hspec), if_neg (not_not.mpr hlen)]
  simp only [sliceBytes, if_neg (show ¬instruction.args.length < 8 by omega),
    if_neg (show ¬instruction.args.length < 16 by omega), List.drop_zero, List.drop_take,
    bind, Except.bind]
  rw [littleEndianUint64_of_le (by simp; omega), littleEndianUint64_of_le (by simp; omega),
    List.getElem?_eq_getElem h16]
  simp only [List.getD_eq_getElem?_getD, List.getElem?_eq_getElem h16, Option.getD_some,
    Nat.sub_zero, List.take_take, min_self]
  rfl

/-- Eight bytes read as a word are `x` exactly when they are the bytes of `x`. -/
theorem littleEndian_word_iff {t : Bytes} (ht : t.length = 8) (x : UInt64) :
    UInt64.ofNat (littleEndianValue t) = x ↔ t = littleEndianBytes 8 x.toNat := by
  have hlt : littleEndianValue t < UInt64.size := by
    have h := littleEndianValue_lt t
    rw [ht] at h
    exact h
  constructor
  · rintro rfl
    rw [UInt64.toNat_ofNat_of_lt hlt, ← ht, littleEndianBytes_value]
  · rintro rfl
    rw [littleEndianValue_bytes, Nat.mod_eq_of_lt (show x.toNat < 256 ^ 8 from x.toNat_lt_size),
      uint64_ofNat_toNat]

/-- The encoding's arguments: `RPCISwapSectorLen` bytes, the two words, then the flag. -/
theorem encodeSwapSectorInstruction_args (i : InstructionSwapSector)
    (h17 : 17 ≤ denv.rpcISwapSectorLen) :
    let args := (encodeSwapSectorInstruction denv i).args
    args.length = denv.rpcISwapSectorLen ∧
      args.take 8 = littleEndianBytes 8 i.sector1Offset.toNat ∧
      (args.drop 8).take 8 = littleEndianBytes 8 i.sector2Offset.toNat ∧
      args[16]? = some (if i.staticMerkleProof then 1 else 0) := by
  simp only [encodeSwapSectorInstruction, List.append_assoc]
  refine ⟨by simp; omega, List.take_left' (by simp), ?_, ?_⟩
  · rw [List.drop_left' (by simp), List.take_left' (by simp)]
  · rw [← List.append_assoc, List.getElem?_append_right (by simp)]
    simp

/-- Every `SwapSector` instruction decodes back from its encoding, whenever
    `RPCISwapSectorLen` leaves room for the two words and the flag. -/
theorem staticDecodeSwapSectorInstruction_encode (i : InstructionSwapSector)
    (h17 : 17 ≤ denv.rpcISwapSectorLen) :
    staticDecodeSwapSectorInstruction denv (encodeSwapSectorInstruction denv i) = .ok (.ok i) := by
  obtain ⟨hlen, h1, h2, h3⟩ := encodeSwapSectorInstruction_args denv i h17
  rw [staticDecodeSwapSectorInstruction_of_valid denv rfl hlen h17, h1, h2,
    List.getD_eq_getElem?_getD, h3, Option.getD_some,
    (littleEndian_word_iff (littleEndianBytes_length 8 _) _).mpr rfl,
    (littleEndian_word_iff (littleEndianBytes_length 8 _) _).mpr rfl]
  obtain ⟨flag, _, _⟩ := i
  cases flag <;> rfl

/-- A decoder with the sources' 17-byte `SwapSector` arguments. -/
def toyDecodeEnv : DecodeEnv := ⟨5, 17, fun _ => "Swap"⟩

/-- `Swap` of the data offsets 8 and 16 with a proof decodes back from its 17 bytes. -/
theorem toy_swap_round_trip :
    17 ≤ toyDecodeEnv.rpcISwapSectorLen ∧
      staticDecodeSwapSectorInstruction toyDecodeEnv
          (encodeSwapSectorInstruction toyDecodeEnv ⟨true, 8, 16⟩) = .ok (.ok ⟨true, 8, 16⟩) :=
  ⟨by decide, staticDecodeSwapSectorInstruction_encode _ _ (by decide)⟩


/-- The decoder returns an error, and no instruction, when the specifier or the length is
    wrong. -/
theorem staticDecodeSwapSectorInstruction_of_invalid {instruction : Instruction}
    (h : instruction.specifier ≠ denv.specifierSwapSector ∨
      instruction.args.length ≠ denv.rpcISwapSectorLen) :
    ∃ err, staticDecodeSwapSectorInstruction denv instruction = .ok (.error err) := by
  unfold staticDecodeSwapSectorInstruction
  by_cases hspec : instruction.specifier = denv.specifierSwapSector
  · rw [if_neg (not_not.mpr hspec), if_pos (h.resolve_left (not_not.mpr hspec))]
    exact ⟨_, rfl⟩
  · exact ⟨_, if_pos hspec⟩

/-- The decoder accepts exactly the instructions with the `SwapSector` specifier and length
    whose first sixteen bytes are the encoding's two words; it sets the proof flag exactly when
    the byte after them is 1, so that every other byte there reads as no proof, and it ignores
    the bytes after that one. -/
theorem staticDecodeSwapSectorInstruction_ok_iff {instruction : Instruction}
    {i : InstructionSwapSector} (h17 : 17 ≤ denv.rpcISwapSectorLen) :
    staticDecodeSwapSectorInstruction denv instruction = .ok (.ok i) ↔
      instruction.specifier = denv.specifierSwapSector ∧
      instruction.args.length = denv.rpcISwapSectorLen ∧
      instruction.args.take 16 = (encodeSwapSectorInstruction denv i).args.take 16 ∧
      (instruction.args[16]? = some 1 ↔ i.staticMerkleProof = true) := by
  by_cases hvalid : instruction.specifier = denv.specifierSwapSector ∧
      instruction.args.length = denv.rpcISwapSectorLen
  · obtain ⟨hspec, hlen⟩ := hvalid
    obtain ⟨-, h1, h2, -⟩ := encodeSwapSectorInstruction_args denv i h17
    have h16 : 16 < instruction.args.length := by omega
    -- sixteen bytes are two words
    have happ {s t s' t' : Bytes} (hl : s.length = s'.length) : s ++ t = s' ++ t' ↔ s = s' ∧ t = t' :=
      ⟨fun h => List.append_inj h hl, fun ⟨h, h'⟩ => h ▸ h' ▸ rfl⟩
    rw [staticDecodeSwapSectorInstruction_of_valid denv hspec hlen h17, List.take_add _ 8 8,
      List.take_add _ 8 8, h1, h2, happ (by simp; omega), ← littleEndian_word_iff (by simp; omega),
      ← littleEndian_word_iff (by simp; omega), List.getD_eq_getElem?_getD,
      List.getElem?_eq_getElem h16, Option.getD_some]
    obtain ⟨flag, o1, o2⟩ := i
    cases flag <;> simp [hspec, hlen, beq_iff_eq] <;> exact and_comm
  · obtain ⟨err, herr⟩ := staticDecodeSwapSectorInstruction_of_invalid denv (not_and_or.mp hvalid)
    rw [herr]
    simp only [Except.ok.injEq, reduceCtorEq, false_iff]
    exact fun ⟨hspec, hlen, _⟩ => hvalid ⟨hspec, hlen⟩

/-- A flag byte of 2 is accepted, and reads as no proof: the encoding of `Swap(8, 16)` without
    a proof with its last byte set to 2 decodes to that instruction. -/
theorem toy_flag_byte_two_no_proof :
    let instruction : Instruction :=
      ⟨5, (encodeSwapSectorInstruction toyDecodeEnv ⟨false, 8, 16⟩).args.set 16 2⟩
    17 ≤ toyDecodeEnv.rpcISwapSectorLen ∧
      (staticDecodeSwapSectorInstruction toyDecodeEnv instruction = .ok (.ok ⟨false, 8, 16⟩) ↔
        instruction.specifier = toyDecodeEnv.specifierSwapSector ∧
        instruction.args.length = toyDecodeEnv.rpcISwapSectorLen ∧
        instruction.args.take 16 =
          (encodeSwapSectorInstruction toyDecodeEnv ⟨false, 8, 16⟩).args.take 16 ∧
        (instruction.args[16]? = some 1 ↔ false = true)) ∧
      staticDecodeSwapSectorInstruction toyDecodeEnv instruction = .ok (.ok ⟨false, 8, 16⟩) :=
  ⟨by decide, staticDecodeSwapSectorInstruction_ok_iff _ (by decide), rfl⟩

/-- The decoder panics exactly on an instruction with the `SwapSector` specifier and length
    when `RPCISwapSectorLen` is below the 17 bytes it reads: with 17 or more it never panics. -/
theorem staticDecodeSwapSectorInstruction_panics_iff (instruction : Instruction) :
    (∃ err, staticDecodeSwapSectorInstruction denv instruction = .error err) ↔
      instruction.specifier = denv.specifierSwapSector ∧
      instruction.args.length = denv.rpcISwapSectorLen ∧ denv.rpcISwapSectorLen < 17 := by
  by_cases hvalid : instruction.specifier = denv.specifierSwapSector ∧
      instruction.args.length = denv.rpcISwapSectorLen
  · obtain ⟨hspec, hlen⟩ := hvalid
    by_cases h17 : 17 ≤ denv.rpcISwapSectorLen
    · rw [staticDecodeSwapSectorInstruction_of_valid denv hspec hlen h17]
      simp only [reduceCtorEq, exists_false, false_iff]
      omega
    · -- a short argument list: one of the two slices or the flag's index is out of range
      simp only [hspec, hlen, true_and, Nat.lt_of_not_le h17, iff_true]
      unfold staticDecodeSwapSectorInstruction
      rw [if_neg (not_not.mpr hspec), if_neg (not_not.mpr hlen)]
      simp only [sliceBytes, bind, Except.bind, hlen, Nat.sub_zero, List.drop_zero, List.drop_take]
      by_cases h8 : denv.rpcISwapSectorLen < 8
      · simp only [if_pos h8]
        exact ⟨_, rfl⟩
      have hw1 : 8 ≤ (instruction.args.take 8).length := by simp; omega
      simp only [if_neg h8, littleEndianUint64_of_le hw1]
      by_cases h16 : denv.rpcISwapSectorLen < 16
      · simp only [if_pos h16]
        exact ⟨_, rfl⟩
      have hw2 : 8 ≤ ((instruction.args.drop 8).take (16 - 8)).length := by simp; omega
      simp only [if_neg h16, littleEndianUint64_of_le hw2,
        List.getElem?_eq_none (show instruction.args.length ≤ 16 by omega)]
      exact ⟨_, rfl⟩
  · obtain ⟨err, herr⟩ := staticDecodeSwapSectorInstruction_of_invalid denv (not_and_or.mp hvalid)
    rw [herr]
    simp only [reduceCtorEq, exists_false, false_iff]
    exact fun ⟨hspec, hlen, _⟩ => hvalid ⟨hspec, hlen⟩

end FormalSia.Mdm
