/-
  FormalSia.Types.Block — the coinbase, the number of siacoins in circulation, the block
  subsidy and the Merkle root and branches of a block (`types/block.go`).

  `CalculateCoinbase` computes `InitialCoinbase − height` in `uint64` and replaces it by
  `MinimumCoinbase` when the height is past the initial coinbase or the difference is below
  the minimum.  `CalculateNumSiacoins` does not add the coinbases block by block: it takes
  the average of the first and the last coinbase (`Div64(2)`, a truncating halving) times
  the number of deflating blocks, then the minimum coinbase for every later block, and the
  foundation subsidies as one initial subsidy and one payment every
  `FoundationSubsidyFrequency` blocks.

  The consensus constants are defined outside the sources; they are the fields of
  `CoinbaseConstants`, which carries the facts about them that the closed form needs and
  that the network's constants have: the minimum coinbase is positive and at most the
  initial one, the precision is even, and the subsidy frequency is positive (Go panics on a
  division by zero).  Heights are `uint64`, currencies unbounded naturals.

  Main results:
    * `calculateCoinbase_eq_max` — the coinbase is max(InitialCoinbase − h, MinimumCoinbase)
      · SiacoinPrecision as an integer: the `uint64` wrap never reaches it.
    * `calculateNumSiacoins_closed_form` — the closed form equals the genesis siacoins plus
      the sum of every block's coinbase plus the sum of every block's foundation subsidy,
      and its halving truncates nothing.
    * `calculateNumSiacoins_mono` — hence the number of siacoins never decreases with the
      height.
    * `calculateSubsidy_eq` — a block's subsidy is its coinbase, in that closed form, plus
      every miner fee of its transactions.
    * `Block.merkleRoot_eq` — `MerkleRoot` is the spec's binary Merkle root over the encoded
      miner payouts, then transactions.
    * `Block.merkleBranches_spec` — `MerkleBranches`, which reads the tree's subtree list
      through its memory layout, lists the hex roots of the blocks into which the binary
      digits of the number of leaves cut them, newest first.
    * `Block.merkleRoot_eq_of_merkleBranches_eq` — the branches determine the root.

  The encodings of payouts and transactions (`MarshalSia`) are parameters (`Marshal`), and so
  is the tree's hash; `hex.EncodeToString` is modelled, with the decoding that shows it loses
  nothing.
-/
import FormalSia.Crypto.MerkleTree
import FormalSia.Types.Basic
import Mathlib.Algebra.BigOperators.Intervals
import Mathlib.Algebra.BigOperators.Ring
import Mathlib.Algebra.Order.BigOperators.Group.Finset
import Mathlib.Tactic.Ring
import Mathlib.Tactic.Zify

namespace FormalSia.Types

/-- The consensus constants the coinbase reads, with the facts the closed form relies on. -/
structure CoinbaseConstants where
  /-- `InitialCoinbase`. -/
  initialCoinbase : UInt64
  /-- `MinimumCoinbase`. -/
  minimumCoinbase : UInt64
  /-- `SiacoinPrecision`. -/
  siacoinPrecision : Nat
  /-- `FoundationHardforkHeight`. -/
  foundationHardforkHeight : BlockHeight
  /-- `FoundationSubsidyFrequency`. -/
  foundationSubsidyFrequency : BlockHeight
  /-- `InitialFoundationSubsidy`. -/
  initialFoundationSubsidy : Nat
  /-- `FoundationSubsidyPerBlock`. -/
  foundationSubsidyPerBlock : Nat
  /-- The values of the siacoin outputs of each transaction of `GenesisBlock`. -/
  genesisOutputValues : List (List Nat)
  minimumCoinbase_pos : 0 < minimumCoinbase.toNat
  minimumCoinbase_le : minimumCoinbase.toNat ≤ initialCoinbase.toNat
  siacoinPrecision_even : siacoinPrecision % 2 = 0
  foundationSubsidyFrequency_pos : 0 < foundationSubsidyFrequency.toNat

variable (k : CoinbaseConstants)

/-! ## §1. The code -/

/-- `numGenesisSiacoins`: the sum of the genesis block's siacoin outputs. -/
def numGenesisSiacoins : Nat :=
  k.genesisOutputValues.foldl (fun total txn => txn.foldl (· + ·) total) 0

/-- `CalculateCoinbase`. -/
def calculateCoinbase (height : BlockHeight) : Nat :=
  let base := k.initialCoinbase - height
  let base := if height > k.initialCoinbase ∨ base < k.minimumCoinbase then k.minimumCoinbase
    else base
  base.toNat * k.siacoinPrecision

/-- `Block.CalculateSubsidy`, for a block whose transactions carry the miner fees
    `minerFees`. -/
def calculateSubsidy (minerFees : List (List Nat)) (height : BlockHeight) : Nat :=
  minerFees.foldl (fun subsidy fees => fees.foldl (· + ·) subsidy) (calculateCoinbase k height)

/-- `CalculateNumSiacoins`. -/
def calculateNumSiacoins (height : BlockHeight) : Nat :=
  let total := numGenesisSiacoins k
  let deflationBlocks : BlockHeight := k.initialCoinbase - k.minimumCoinbase
  let avgDeflationSiacoins := (calculateCoinbase k 0 + calculateCoinbase k height) / 2
  let total :=
    if height ≤ deflationBlocks then total + avgDeflationSiacoins * (height + 1).toNat
    else
      total + avgDeflationSiacoins * (deflationBlocks + 1).toNat +
        calculateCoinbase k height * (height - deflationBlocks).toNat
  if height ≥ k.foundationHardforkHeight then
    let total := total + k.initialFoundationSubsidy
    let perSubsidy := k.foundationSubsidyPerBlock * k.foundationSubsidyFrequency.toNat
    let subsidies := (height - k.foundationHardforkHeight) / k.foundationSubsidyFrequency
    total + perSubsidy * subsidies.toNat
  else total

/-! ## §2. The block-by-block view -/

/-- The foundation subsidy paid at height `i`: the initial subsidy at the hardfork height,
    one period's subsidy at every later multiple of the frequency, nothing otherwise. -/
def foundationSubsidyAt (i : Nat) : Nat :=
  if i = k.foundationHardforkHeight.toNat then k.initialFoundationSubsidy
  else if k.foundationHardforkHeight.toNat < i ∧
      (i - k.foundationHardforkHeight.toNat) % k.foundationSubsidyFrequency.toNat = 0 then
    k.foundationSubsidyPerBlock * k.foundationSubsidyFrequency.toNat
  else 0

theorem uint64_lt_iff (a b : UInt64) : a < b ↔ a.toNat < b.toNat := Iff.rfl

theorem uint64_le_iff (a b : UInt64) : a ≤ b ↔ a.toNat ≤ b.toNat := Iff.rfl

/-! ## §3. The coinbase -/

/-- The coinbase as a natural number: the truncated difference never drops below the
    minimum. -/
theorem calculateCoinbase_eq (h : BlockHeight) :
    calculateCoinbase k h =
      max (k.initialCoinbase.toNat - h.toNat) k.minimumCoinbase.toNat * k.siacoinPrecision := by
  unfold calculateCoinbase
  dsimp only
  congr 1
  by_cases hh : h.toNat ≤ k.initialCoinbase.toNat
  · have hs : (k.initialCoinbase - h).toNat = k.initialCoinbase.toNat - h.toNat :=
      UInt64.toNat_sub_of_le _ _ hh
    simp only [gt_iff_lt, uint64_lt_iff, hs]
    split_ifs <;> omega
  · simp only [gt_iff_lt, uint64_lt_iff]
    rw [if_pos (.inl (by omega))]
    omega

/-- `CalculateCoinbase(h) = max(InitialCoinbase − h, MinimumCoinbase) · SiacoinPrecision` as
    an integer, for every `uint64` height. -/
theorem calculateCoinbase_eq_max (h : BlockHeight) :
    (calculateCoinbase k h : Int) =
      max ((k.initialCoinbase.toNat : Int) - h.toNat) k.minimumCoinbase.toNat *
        k.siacoinPrecision := by
  rw [calculateCoinbase_eq]
  push_cast
  congr 1
  omega

/-- The coinbase at a height `i` of the deflation. -/
theorem calculateCoinbase_of_le {i : Nat}
    (hi : i ≤ k.initialCoinbase.toNat - k.minimumCoinbase.toNat) :
    calculateCoinbase k (UInt64.ofNat i) = (k.initialCoinbase.toNat - i) * k.siacoinPrecision := by
  have hlt : i < UInt64.size := by have := k.initialCoinbase.toNat_lt_size; omega
  have := k.minimumCoinbase_le
  rw [calculateCoinbase_eq, UInt64.toNat_ofNat_of_lt hlt]
  congr 1
  omega

/-- The coinbase at a height past the deflation. -/
theorem calculateCoinbase_of_gt {i : Nat}
    (hi : k.initialCoinbase.toNat - k.minimumCoinbase.toNat < i) (hs : i < UInt64.size) :
    calculateCoinbase k (UInt64.ofNat i) = k.minimumCoinbase.toNat * k.siacoinPrecision := by
  rw [calculateCoinbase_eq, UInt64.toNat_ofNat_of_lt hs]
  congr 1
  omega

theorem calculateCoinbase_zero :
    calculateCoinbase k 0 = k.initialCoinbase.toNat * k.siacoinPrecision := by
  rw [calculateCoinbase_eq]
  have := k.minimumCoinbase_le
  congr 1
  simp only [UInt64.toNat_zero, Nat.sub_zero]
  omega

/-- Every coinbase is a multiple of the even precision, so halving the sum of two
    coinbases truncates nothing. -/
theorem calculateCoinbase_add_mod_two (h h' : BlockHeight) :
    (calculateCoinbase k h + calculateCoinbase k h') % 2 = 0 := by
  have hev : ∀ x, x * k.siacoinPrecision % 2 = 0 := fun x => by
    simp [Nat.mul_mod, k.siacoinPrecision_even]
  rw [calculateCoinbase_eq, calculateCoinbase_eq, Nat.add_mod, hev, hev]

/-! ## §4. The sums -/

/-- Twice an arithmetic series counting down from `a`. -/
theorem two_mul_sum_range_sub (a n : Nat) (hn : n ≤ a) :
    2 * ∑ i in Finset.range (n + 1), (a - i) = (n + 1) * (2 * a - n) := by
  induction n with
  | zero => simp
  | succ n ih =>
    rw [Finset.sum_range_succ, mul_add, ih (by omega)]
    zify [hn, (by omega : n + 1 ≤ 2 * a), (by omega : n ≤ 2 * a)]
    ring

/-- On the deflation the coinbases sum to the average of the first and the last times the
    number of blocks. -/
theorem sum_calculateCoinbase_of_le {n : Nat}
    (hn : n ≤ k.initialCoinbase.toNat - k.minimumCoinbase.toNat) :
    ∑ i in Finset.range (n + 1), calculateCoinbase k (UInt64.ofNat i) =
      (calculateCoinbase k 0 + calculateCoinbase k (UInt64.ofNat n)) / 2 * (n + 1) := by
  obtain ⟨q, hq⟩ : ∃ q, k.siacoinPrecision = 2 * q :=
    ⟨k.siacoinPrecision / 2, by have := k.siacoinPrecision_even; omega⟩
  have hI : n ≤ k.initialCoinbase.toNat := by omega
  have hsum : ∑ i in Finset.range (n + 1), calculateCoinbase k (UInt64.ofNat i) =
      (∑ i in Finset.range (n + 1), (k.initialCoinbase.toNat - i)) * k.siacoinPrecision := by
    rw [Finset.sum_mul]
    exact Finset.sum_congr rfl fun i hi =>
      calculateCoinbase_of_le k (by simp only [Finset.mem_range] at hi; omega)
  have havg : k.initialCoinbase.toNat * k.siacoinPrecision +
      (k.initialCoinbase.toNat - n) * k.siacoinPrecision =
      2 * (q * (2 * k.initialCoinbase.toNat - n)) := by
    rw [hq]; zify [hI, (by omega : n ≤ 2 * k.initialCoinbase.toNat)]; ring
  rw [hsum, calculateCoinbase_zero, calculateCoinbase_of_le k hn, havg,
    Nat.mul_div_cancel_left _ (by norm_num : 0 < 2)]
  calc (∑ i in Finset.range (n + 1), (k.initialCoinbase.toNat - i)) * k.siacoinPrecision
      = q * (2 * ∑ i in Finset.range (n + 1), (k.initialCoinbase.toNat - i)) := by rw [hq]; ring
    _ = q * (2 * k.initialCoinbase.toNat - n) * (n + 1) := by
      rw [two_mul_sum_range_sub _ _ hI]; ring

/-- Past the deflation every block adds the minimum coinbase. -/
theorem sum_calculateCoinbase_of_gt {n : Nat}
    (hn : k.initialCoinbase.toNat - k.minimumCoinbase.toNat < n) (hs : n < UInt64.size) :
    ∑ i in Finset.range (n + 1), calculateCoinbase k (UInt64.ofNat i) =
      (calculateCoinbase k 0 + calculateCoinbase k (UInt64.ofNat n)) / 2 *
          (k.initialCoinbase.toNat - k.minimumCoinbase.toNat + 1) +
        calculateCoinbase k (UInt64.ofNat n) *
          (n - (k.initialCoinbase.toNat - k.minimumCoinbase.toNat)) := by
  set D := k.initialCoinbase.toNat - k.minimumCoinbase.toNat with hD
  have hsplit : n + 1 = (D + 1) + (n - D) := by omega
  have hlast : calculateCoinbase k (UInt64.ofNat n) = calculateCoinbase k (UInt64.ofNat D) := by
    rw [calculateCoinbase_of_gt k hn hs, calculateCoinbase_of_le k le_rfl]
    have := k.minimumCoinbase_le
    congr 1; omega
  rw [hsplit, Finset.sum_range_add, sum_calculateCoinbase_of_le k le_rfl, ← hlast,
    Finset.sum_congr rfl fun x hx => calculateCoinbase_of_gt k (by omega)
      (by simp only [Finset.mem_range] at hx; omega),
    Finset.sum_const, Finset.card_range, smul_eq_mul, calculateCoinbase_of_gt k hn hs]
  ring

/-- The foundation subsidies up to height `n`: the initial subsidy, then one period's
    subsidy for every full period since the hardfork. -/
theorem sum_foundationSubsidyAt (n : Nat) :
    ∑ i in Finset.range (n + 1), foundationSubsidyAt k i =
      if k.foundationHardforkHeight.toNat ≤ n then
        k.initialFoundationSubsidy + k.foundationSubsidyPerBlock *
          k.foundationSubsidyFrequency.toNat *
          ((n - k.foundationHardforkHeight.toNat) / k.foundationSubsidyFrequency.toNat)
      else 0 := by
  induction n with
  | zero =>
    by_cases h0 : k.foundationHardforkHeight.toNat = 0
    · simp [foundationSubsidyAt, h0]
    · simp [foundationSubsidyAt, h0, Ne.symm h0]
  | succ n ih =>
    rw [Finset.sum_range_succ, ih]
    have hpos := k.foundationSubsidyFrequency_pos
    rcases Nat.lt_trichotomy (n + 1) k.foundationHardforkHeight.toNat with hlt | heq | hgt
    · have hz : foundationSubsidyAt k (n + 1) = 0 := by
        unfold foundationSubsidyAt
        rw [if_neg hlt.ne, if_neg fun h => absurd h.1 (by omega)]
      rw [if_neg (by omega), if_neg (by omega), hz]
    · simp [foundationSubsidyAt, ← heq]
    · have hsub : n + 1 - k.foundationHardforkHeight.toNat =
          n - k.foundationHardforkHeight.toNat + 1 := by omega
      simp only [foundationSubsidyAt, if_pos (by omega : k.foundationHardforkHeight.toNat ≤ n),
        if_pos hgt.le, if_neg hgt.ne', hgt, true_and, hsub, Nat.succ_div,
        Nat.dvd_iff_mod_eq_zero]
      split <;> ring

/-! ## §5. The closed form -/

/-- The coinbase part of `CalculateNumSiacoins` is the sum of every block's coinbase. -/
theorem deflation_total_eq_sum (h : BlockHeight) :
    (if h ≤ k.initialCoinbase - k.minimumCoinbase then
        (calculateCoinbase k 0 + calculateCoinbase k h) / 2 * (h + 1).toNat
      else
        (calculateCoinbase k 0 + calculateCoinbase k h) / 2 *
            (k.initialCoinbase - k.minimumCoinbase + 1).toNat +
          calculateCoinbase k h * (h - (k.initialCoinbase - k.minimumCoinbase)).toNat) =
      ∑ i in Finset.range (h.toNat + 1), calculateCoinbase k (UInt64.ofNat i) := by
  have hM := k.minimumCoinbase_pos
  have hI := k.initialCoinbase.toNat_lt_size
  have hD : (k.initialCoinbase - k.minimumCoinbase).toNat =
      k.initialCoinbase.toNat - k.minimumCoinbase.toNat :=
    UInt64.toNat_sub_of_le _ _ k.minimumCoinbase_le
  have hsucc : ∀ x : UInt64, x.toNat ≤ k.initialCoinbase.toNat - k.minimumCoinbase.toNat →
      (x + 1).toNat = x.toNat + 1 := fun x hx =>
    uint64_toNat_add_one x (by simp only [UInt64.size] at hI ⊢; omega)
  simp only [uint64_le_iff, hD]
  split_ifs with hd
  · rw [hsucc h hd, sum_calculateCoinbase_of_le k hd, uint64_ofNat_toNat]
  · rw [hsucc _ (by omega), hD, UInt64.toNat_sub_of_le _ _ (by rw [uint64_le_iff, hD]; omega),
      hD, sum_calculateCoinbase_of_gt k (by omega) h.toNat_lt_size, uint64_ofNat_toNat]

/-- The subsidy part of `CalculateNumSiacoins` in `uint64` is the same in naturals. -/
theorem subsidy_total_toNat (h : BlockHeight) :
    (if h ≥ k.foundationHardforkHeight then
        k.initialFoundationSubsidy + k.foundationSubsidyPerBlock *
          k.foundationSubsidyFrequency.toNat *
          ((h - k.foundationHardforkHeight) / k.foundationSubsidyFrequency).toNat
      else 0) =
      if k.foundationHardforkHeight.toNat ≤ h.toNat then
        k.initialFoundationSubsidy + k.foundationSubsidyPerBlock *
          k.foundationSubsidyFrequency.toNat *
          ((h.toNat - k.foundationHardforkHeight.toNat) / k.foundationSubsidyFrequency.toNat)
      else 0 := by
  simp only [ge_iff_le, uint64_le_iff]
  split_ifs with hf
  · rw [UInt64.toNat_div, UInt64.toNat_sub_of_le _ _ hf]
  · rfl

/-- `CalculateNumSiacoins` is the genesis siacoins plus every block's coinbase and
    foundation subsidy up to the height. -/
theorem calculateNumSiacoins_eq_sum (h : BlockHeight) :
    calculateNumSiacoins k h = numGenesisSiacoins k +
      ∑ i in Finset.range (h.toNat + 1), calculateCoinbase k (UInt64.ofNat i) +
      ∑ i in Finset.range (h.toNat + 1), foundationSubsidyAt k i := by
  rw [sum_foundationSubsidyAt, ← deflation_total_eq_sum, ← subsidy_total_toNat]
  unfold calculateNumSiacoins
  dsimp only
  split_ifs <;> ring

/-- `CalculateNumSiacoins` at every `uint64` height: the coinbase has the closed form
    max(InitialCoinbase − h, MinimumCoinbase) · SiacoinPrecision, the halving of the first
    and last coinbase truncates nothing, and the total is the genesis siacoins plus every
    block's coinbase plus every block's foundation subsidy. -/
theorem calculateNumSiacoins_closed_form (h : BlockHeight) :
    (calculateCoinbase k h : Int) =
      max ((k.initialCoinbase.toNat : Int) - h.toNat) k.minimumCoinbase.toNat *
        k.siacoinPrecision ∧
    (calculateCoinbase k 0 + calculateCoinbase k h) % 2 = 0 ∧
    calculateNumSiacoins k h = numGenesisSiacoins k +
      ∑ i in Finset.range (h.toNat + 1), calculateCoinbase k (UInt64.ofNat i) +
      ∑ i in Finset.range (h.toNat + 1), foundationSubsidyAt k i :=
  ⟨calculateCoinbase_eq_max k h, calculateCoinbase_add_mod_two k 0 h,
    calculateNumSiacoins_eq_sum k h⟩

/-- The siacoins in circulation never decrease with the height. -/
theorem calculateNumSiacoins_mono {h h' : BlockHeight} (hle : h ≤ h') :
    calculateNumSiacoins k h ≤ calculateNumSiacoins k h' := by
  have hsub : Finset.range (h.toNat + 1) ⊆ Finset.range (h'.toNat + 1) :=
    Finset.range_subset.mpr (Nat.succ_le_succ hle)
  rw [calculateNumSiacoins_eq_sum, calculateNumSiacoins_eq_sum]
  exact Nat.add_le_add (Nat.add_le_add_left (Finset.sum_le_sum_of_subset hsub) _)
    (Finset.sum_le_sum_of_subset hsub)

/-! ## §6. The block subsidy -/

theorem foldl_add_eq (l : List Nat) (a : Nat) : l.foldl (· + ·) a = a + l.sum := by
  induction l generalizing a with
  | nil => rfl
  | cons x xs ih => rw [List.foldl_cons, ih, List.sum_cons, Nat.add_assoc]

/-- The block subsidy is the coinbase, in its closed form, plus every miner fee of the
    block's transactions. -/
theorem calculateSubsidy_eq (minerFees : List (List Nat)) (h : BlockHeight) :
    calculateSubsidy k minerFees h =
      max (k.initialCoinbase.toNat - h.toNat) k.minimumCoinbase.toNat * k.siacoinPrecision +
        (minerFees.map List.sum).sum := by
  rw [calculateSubsidy, ← calculateCoinbase_eq]
  generalize calculateCoinbase k h = a
  induction minerFees generalizing a with
  | nil => rfl
  | cons fees rest ih => rw [List.foldl_cons, ih, foldl_add_eq, List.map_cons, List.sum_cons,
      Nat.add_assoc]

/-- Toy constants: a coinbase of 10 falling to 3, precision 2, subsidies from height 5
    every 2 blocks, and one genesis output of 100. -/
def toyConstants : CoinbaseConstants :=
  { initialCoinbase := 10, minimumCoinbase := 3, siacoinPrecision := 2,
    foundationHardforkHeight := 5, foundationSubsidyFrequency := 2,
    initialFoundationSubsidy := 7, foundationSubsidyPerBlock := 1,
    genesisOutputValues := [[100]],
    minimumCoinbase_pos := by decide, minimumCoinbase_le := by decide,
    siacoinPrecision_even := rfl, foundationSubsidyFrequency_pos := by decide }

theorem toyConstants_mono : (4 : BlockHeight) ≤ 9 ∧
    calculateNumSiacoins toyConstants 4 ≤ calculateNumSiacoins toyConstants 9 :=
  ⟨by decide, calculateNumSiacoins_mono toyConstants (by decide)⟩

/-! ## §7. The Merkle root and the Merkle branches -/

/-- The Sia encodings (`MarshalSia`) of the two kinds of leaves of a block's tree; the
    `encoding` package is outside the sources. -/
structure Marshal where
  siacoinOutput : SiacoinOutput → Bytes
  transaction : Transaction → Bytes

/-- `types.Block`, reduced to the fields `MerkleRoot` and `MerkleBranches` read. -/
structure Block where
  minerPayouts : List SiacoinOutput
  transactions : List Transaction
  deriving DecidableEq, Repr

/-- `copy(h[:], root)` in `crypto.MerkleTree.Root`: the first 32 bytes, the missing ones zero,
    as a hash (read big-endian). -/
def hashOfBytes (sum : Bytes) : Hash :=
  BitVec.ofNat 256
    (((sum ++ List.replicate 32 0).take 32).foldl (fun acc (b : UInt8) => acc * 256 + b.toNat) 0)

/-- `hex.EncodeToString`: two lower-case hexadecimal digits per byte. -/
def encodeToString (src : Bytes) : String :=
  String.mk (src.flatMap fun b => [Nat.digitChar (b.toNat / 16), Nat.digitChar (b.toNat % 16)])

/-- The value of a lower-case hexadecimal digit. -/
def hexValue (c : Char) : Nat := if c.toNat < 58 then c.toNat - 48 else c.toNat - 87

/-- `hex.DecodeString` on the digits `EncodeToString` writes: one byte from every two digits. -/
def decodeDigits : List Char → Bytes
  | hi :: lo :: rest => (16 * hexValue hi + hexValue lo).toUInt8 :: decodeDigits rest
  | _ => []

theorem hexValue_digitChar : ∀ i : Fin 16, hexValue (Nat.digitChar i) = i := by decide

theorem decodeDigits_encodeToString (src : Bytes) :
    decodeDigits (encodeToString src).data = src := by
  induction src with
  | nil => rfl
  | cons b rest ih =>
    have hb : b.toNat < 256 := b.toNat_lt_size
    have hi : hexValue (Nat.digitChar (b.toNat / 16)) = b.toNat / 16 :=
      hexValue_digitChar ⟨b.toNat / 16, by omega⟩
    have lo : hexValue (Nat.digitChar (b.toNat % 16)) = b.toNat % 16 :=
      hexValue_digitChar ⟨b.toNat % 16, by omega⟩
    show decodeDigits (Nat.digitChar (b.toNat / 16) :: Nat.digitChar (b.toNat % 16) ::
      (encodeToString rest).data) = b :: rest
    rw [decodeDigits, hi, lo, Nat.div_add_mod, ih]
    exact congrArg (· :: rest) (UInt8.toNat.inj (UInt8.toNat_ofNat_of_lt hb))

theorem encodeToString_injective : Function.Injective encodeToString := fun a b h => by
  rw [← decodeDigits_encodeToString a, ← decodeDigits_encodeToString b, h]

section MerkleTree

open Crypto

variable (m : Marshal) (hash : Bytes → Bytes)

/-- The tree `MerkleRoot` and `MerkleBranches` both build on `crypto.NewTree()`: the encoding
    of every miner payout, then of every transaction, each pushed as one leaf (the buffer is
    reset after each push). -/
def Block.tree (b : Block) : List SubTree :=
  b.transactions.foldl (fun tree txn => push hash tree (m.transaction txn))
    (b.minerPayouts.foldl (fun tree payout => push hash tree (m.siacoinOutput payout)) [])

/-- `Block.MerkleRoot`: the root of the block's tree, copied into a hash. -/
def Block.merkleRoot (b : Block) : Hash := hashOfBytes ((root hash (b.tree m hash)).getD [])

/-- `Block.MerkleBranches`: the hex encoding of the sum of every subtree of the block's tree,
    from `head` along `next`, read through the tree's memory layout. -/
def Block.merkleBranches (b : Block) : List String :=
  (b.tree m hash).map fun st => encodeToString st.sum

/-- The leaves of a block's tree: its payouts' encodings, then its transactions'. -/
def Block.leaves (b : Block) : List Bytes :=
  b.minerPayouts.map m.siacoinOutput ++ b.transactions.map m.transaction

theorem Block.tree_eq (b : Block) : b.tree m hash = pushAll hash (b.leaves m) := by
  simp only [Block.tree, Block.leaves, pushAll, List.foldl_append, List.foldl_map]

/-- A block's Merkle root is the spec's binary Merkle root over the encodings of its miner
    payouts, then of its transactions. -/
theorem Block.merkleRoot_eq (b : Block) :
    b.merkleRoot m hash = hashOfBytes ((merkleRootOf hash (b.leaves m)).getD []) := by
  rw [Block.merkleRoot, Block.tree_eq, root_pushAll]

/-- `MerkleBranches` cuts the leaves, oldest first, into blocks whose sizes are the binary
    digits of their number, and lists the hex of each block's Merkle root, newest first. -/
theorem Block.merkleBranches_spec (b : Block) :
    ∃ blocks : List (List Bytes),
      (blocks.reverse.flatten = b.leaves m ∧
        blocks.map List.length = (b.leaves m).length.bitIndices.map (2 ^ ·)) ∧
      b.merkleBranches m hash =
        blocks.map fun blk => encodeToString ((merkleRootOf hash blk).getD []) := by
  obtain ⟨blocks, hflat, hlens, hsums⟩ := (covers_pushAll hash (b.leaves m)).blocks hash
  refine ⟨blocks, ⟨hflat, ?_⟩, ?_⟩
  · rw [hlens, ← heights_pushAll hash, List.map_map]
    rfl
  · rw [Block.merkleBranches, Block.tree_eq]
    calc _ = ((pushAll hash (b.leaves m)).map SubTree.sum).map encodeToString :=
          (List.map_map _ _ _).symm
      _ = _ := by rw [hsums, List.map_map]; rfl

/-- The Merkle branches determine the Merkle root: two blocks with the same branches have the
    same root. -/
theorem Block.merkleRoot_eq_of_merkleBranches_eq {b b' : Block}
    (h : b.merkleBranches m hash = b'.merkleBranches m hash) :
    b.merkleRoot m hash = b'.merkleRoot m hash := by
  have hsums : (b.tree m hash).map SubTree.sum = (b'.tree m hash).map SubTree.sum := by
    refine List.map_injective_iff.mpr encodeToString_injective ?_
    rw [List.map_map, List.map_map]
    exact h
  rw [Block.merkleRoot, Block.merkleRoot, root_congr hash hsums]

end MerkleTree

/-- A toy encoding: a payout is its value's low byte, every transaction the byte 1. -/
def toyMarshal : Marshal := ⟨fun o => [o.value.toUInt8], fun _ => [1]⟩

/-- A block with one payout of value 1, and one with no payout and an empty transaction: both
    have the single leaf `[1]` under `toyMarshal`. -/
def payoutBlock : Block := ⟨[⟨1, 0⟩], []⟩

def transactionBlock : Block := ⟨[], [⟨[], []⟩]⟩

theorem toyBlocks_same_branches_same_root :
    payoutBlock ≠ transactionBlock ∧
      payoutBlock.merkleBranches toyMarshal id = transactionBlock.merkleBranches toyMarshal id ∧
      payoutBlock.merkleRoot toyMarshal id = transactionBlock.merkleRoot toyMarshal id :=
  ⟨by decide, rfl, Block.merkleRoot_eq_of_merkleBranches_eq toyMarshal id rfl⟩

end FormalSia.Types
