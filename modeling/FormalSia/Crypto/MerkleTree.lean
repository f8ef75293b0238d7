/-
  FormalSia.Crypto.MerkleTree — the Merkle tree builder behind `Block.MerkleRoot` and
  `Block.MerkleBranches` (`crypto.NewTree`, a `merkletree.Tree`).

  The tree library is not among the sources.  Modelled from the spec (§4.B: a binary Merkle
  tree with leaf hashes `H(0x00 ∥ data)` and node hashes `H(0x01 ∥ left ∥ right)`) and from the
  layout that `MerkleBranches` declares for it: a linked list of subtrees from `head` along
  `next`, each with its `height` and its `sum`.  `Push` puts the hash of the new leaf at the
  head as a subtree of height 0 and joins the two newest subtrees while their heights are
  equal; `Root` joins the whole list from the newest subtree on.  A tree is modelled by that
  list, newest first, and the hash (BLAKE2b-256 for `crypto.NewTree`) is a parameter.

  The spec's root, `merkleRootOf`, is recursive: the left subtree holds the largest power of
  two of leaves below their number.  `Covers st leaves` says that the subtrees of `st` are the
  perfect trees over consecutive blocks of `leaves`, the newest block last, with strictly
  increasing heights.

  Main results:
    * `covers_pushAll` — every run of `Push` from the empty tree keeps `Covers`.
    * `heights_pushAll` — hence the heights of the subtrees are the binary digits of the
      number of leaves (`Nat.bitIndices`): one subtree per set bit.
    * `root_pushAll` — `Root` after pushing any list of leaves is the spec's Merkle root of
      that list: the streaming builder refines the recursive definition.
-/
import FormalSia.Types.Basic
import Mathlib.Algebra.Order.Ring.Nat
import Mathlib.Data.Nat.BitIndices

namespace FormalSia.Crypto

/-- `merkletree.subTree` without its `next` pointer: a perfect tree of `2 ^ height` leaves and
its Merkle sum. -/
structure SubTree where
  height : Nat
  sum : Bytes
  deriving DecidableEq, Repr

section Builder

variable (hash : Bytes → Bytes)

/-! ## §1. The builder -/

/-- Modelled from the spec: `leafSum`, the hash of a leaf after the leaf prefix `0x00`. -/
def leafSum (data : Bytes) : Bytes := hash (0 :: data)

/-- Modelled from the spec: `nodeSum`, the hash of two sums after the node prefix `0x01`. -/
def nodeSum (a b : Bytes) : Bytes := hash (1 :: (a ++ b))

/-- Modelled from the spec: `joinSubTrees(h, a, b)`, where `a` is the older subtree and `b`
the newer one. -/
def joinSubTrees (a b : SubTree) : SubTree := ⟨a.height + 1, nodeSum hash a.sum b.sum⟩

/-- Modelled from the spec: `joinAllSubTrees`, with `b` the head and `next` the rest of the
list; join the head with the subtree after it while their heights are equal. -/
def joinAllSubTrees (b : SubTree) : List SubTree → List SubTree
  | [] => [b]
  | a :: next =>
    if b.height = a.height then joinAllSubTrees (joinSubTrees hash a b) next
    else b :: a :: next

/-- Modelled from the spec: `Tree.Push`; the leaf becomes a subtree of height 0 at the head,
then the subtrees are joined.  The proof-set bookkeeping (`proofIndex`, `proofSet`,
`currentIndex`) is left out: neither `Root` nor `MerkleBranches` reads it. -/
def push (head : List SubTree) (data : Bytes) : List SubTree :=
  joinAllSubTrees hash ⟨0, leafSum hash data⟩ head

/-- Modelled from the spec: `Tree.Root`, nil for an empty tree, else the head joined, one
after the other, under every older subtree. -/
def root : List SubTree → Option Bytes
  | [] => none
  | b :: next => some (next.foldl (fun current a => joinSubTrees hash a current) b).sum

/-- `Push` of every leaf of `leaves`, in order, on a new tree. -/
def pushAll (leaves : List Bytes) : List SubTree := leaves.foldl (push hash) []

/-! ## §2. The spec's Merkle root -/

/-- The Merkle root of `leaves` in a tree of height at most `h`: with more than `2 ^ (h - 1)`
leaves, the left subtree holds the first `2 ^ (h - 1)` of them.  `none` when there is no leaf
or there are too many. -/
def rootBelow : Nat → List Bytes → Option Bytes
  | 0, [x] => some (leafSum hash x)
  | 0, _ => none
  | h + 1, leaves =>
    if leaves.length ≤ 2 ^ h then rootBelow h leaves
    else (rootBelow h (leaves.take (2 ^ h))).bind fun l =>
      (rootBelow h (leaves.drop (2 ^ h))).map (nodeSum hash l)

/-- The spec's Merkle root of a list of leaves (§4.B); `none` when there is no leaf. -/
def merkleRootOf (leaves : List Bytes) : Option Bytes := rootBelow hash leaves.length leaves

theorem rootBelow_add {leaves : List Bytes} {h : Nat} (hle : leaves.length ≤ 2 ^ h) :
    ∀ k, rootBelow hash (h + k) leaves = rootBelow hash h leaves
  | 0 => rfl
  | k + 1 => by
    rw [← Nat.add_assoc, rootBelow,
      if_pos (hle.trans (Nat.pow_le_pow_right (by decide) (Nat.le_add_right h k))),
      rootBelow_add hle k]

/-- Any height bound large enough gives the spec's root. -/
theorem rootBelow_eq_merkleRootOf {leaves : List Bytes} {h : Nat}
    (hle : leaves.length ≤ 2 ^ h) : rootBelow hash h leaves = merkleRootOf hash leaves := by
  unfold merkleRootOf
  rcases Nat.le_total h leaves.length with hh | hh
  · rw [← Nat.add_sub_cancel' hh, rootBelow_add hash hle]
  · rw [← Nat.add_sub_cancel' hh, rootBelow_add hash (Nat.lt_two_pow _).le]

/-- A perfect left subtree of `2 ^ h` leaves, then at least one and at most as many leaves:
the root joins the roots of the two parts. -/
theorem merkleRootOf_append {left right : List Bytes} {h : Nat} {l r : Bytes}
    (hl : left.length = 2 ^ h) (hr0 : 0 < right.length) (hr : right.length ≤ 2 ^ h)
    (hleft : rootBelow hash h left = some l) (hright : merkleRootOf hash right = some r) :
    merkleRootOf hash (left ++ right) = some (nodeSum hash l r) := by
  have hlen : (left ++ right).length ≤ 2 ^ (h + 1) := by
    rw [List.length_append, hl, Nat.pow_succ]; omega
  rw [← rootBelow_eq_merkleRootOf hash hlen, rootBelow,
    if_neg (by rw [List.length_append, hl]; omega), List.take_left' hl, List.drop_left' hl,
    hleft, rootBelow_eq_merkleRootOf hash hr, hright]
  rfl

/-! ## §3. The invariant of the subtree list -/

/-- `Covers st leaves`: the subtrees of `st`, newest first, are the perfect trees over
consecutive blocks of `leaves`, the newest block last, with strictly increasing heights. -/
inductive Covers : List SubTree → List Bytes → Prop
  | nil : Covers [] []
  | cons {s : SubTree} {rest : List SubTree} {pre blk : List Bytes} :
      blk.length = 2 ^ s.height → rootBelow hash s.height blk = some s.sum →
      (∀ t ∈ rest, s.height < t.height) → Covers rest pre → Covers (s :: rest) (pre ++ blk)

/-- The join loop keeps the invariant: a perfect tree `b` over the leaves after `pre`, no taller
than any subtree of `st`, joins `st` into a list that covers both. -/
theorem Covers.joinAll {st : List SubTree} {pre : List Bytes} (hst : Covers hash st pre) :
    ∀ {b : SubTree} {blk : List Bytes}, blk.length = 2 ^ b.height →
      rootBelow hash b.height blk = some b.sum → (∀ t ∈ st, b.height ≤ t.height) →
      Covers hash (joinAllSubTrees hash b st) (pre ++ blk) := by
  induction hst with
  | nil => exact fun hlen hroot _ => .cons hlen hroot (by simp) .nil
  | @cons a rest pre A hA hrootA hlt hrest ih =>
    intro b blk hlen hroot hle
    by_cases heq : b.height = a.height
    · -- equal heights: the two newest subtrees join and the loop goes on
      have hlen' : (A ++ blk).length = 2 ^ (a.height + 1) := by
        rw [List.length_append, hA, hlen, heq, Nat.pow_succ]; omega
      have hright : merkleRootOf hash blk = some b.sum := by
        rwa [← rootBelow_eq_merkleRootOf hash hlen.le]
      rw [joinAllSubTrees, if_pos heq, List.append_assoc]
      refine ih (b := joinSubTrees hash a b) hlen' ?_ hlt
      rw [joinSubTrees, rootBelow_eq_merkleRootOf hash hlen'.le]
      exact merkleRootOf_append hash hA (hlen ▸ Nat.two_pow_pos _) (by rw [hlen, heq]) hrootA
        hright
    · -- a smaller head: the loop stops
      rw [joinAllSubTrees, if_neg heq]
      refine .cons hlen hroot (fun t ht => ?_) (.cons hA hrootA hlt hrest)
      rcases List.mem_cons.mp ht with rfl | ht
      · exact lt_of_le_of_ne (hle t (List.mem_cons_self _ _)) heq
      · exact (hle a (List.mem_cons_self _ _)).trans_lt (hlt t ht)

/-- One `Push` keeps the invariant. -/
theorem Covers.pushLeaf {st : List SubTree} {leaves : List Bytes} (h : Covers hash st leaves)
    (data : Bytes) : Covers hash (push hash st data) (leaves ++ [data]) :=
  h.joinAll hash rfl rfl fun _ _ => Nat.zero_le _

/-- Every run of `Push` keeps the invariant. -/
theorem Covers.pushLeaves {st : List SubTree} {pre : List Bytes} (h : Covers hash st pre)
    (leaves : List Bytes) : Covers hash (leaves.foldl (push hash) st) (pre ++ leaves) := by
  induction leaves generalizing st pre with
  | nil => simpa using h
  | cons x xs ih => simpa using ih (h.pushLeaf hash x)

theorem covers_pushAll (leaves : List Bytes) : Covers hash (pushAll hash leaves) leaves :=
  Covers.nil.pushLeaves hash leaves

/-! ## §4. The shape of the list and its root -/

/-- The heights are strictly increasing and the blocks add up to the leaves. -/
theorem Covers.sorted_sum {st : List SubTree} {leaves : List Bytes} (h : Covers hash st leaves) :
    (st.map SubTree.height).Sorted (· < ·) ∧
      ((st.map SubTree.height).map (2 ^ ·)).sum = leaves.length := by
  induction h with
  | nil => simp
  | cons hlen _ hlt _ ih =>
    refine ⟨List.sorted_cons.2 ⟨by simpa using hlt, ih.1⟩, ?_⟩
    simp only [List.map_cons, List.sum_cons, List.length_append, ih.2, hlen]
    omega

/-- After any run of `Push`, the heights of the subtrees are the binary digits of the number of
leaves. -/
theorem heights_pushAll (leaves : List Bytes) :
    (pushAll hash leaves).map SubTree.height = leaves.length.bitIndices := by
  obtain ⟨hs, hsum⟩ := (covers_pushAll hash leaves).sorted_sum hash
  rw [← hsum, Nat.bitIndices_twoPowsum hs]

example : (pushAll id [[5], [6], [7]]).map SubTree.height = [0, 1] := by decide

/-- The root loop, from the newest subtree `c` over the last leaves `blk` on: it computes the
spec's root of the leaves covered so far. -/
theorem Covers.root_foldl {rest : List SubTree} {pre : List Bytes} (h : Covers hash rest pre) :
    ∀ {c : SubTree} {blk : List Bytes}, 0 < blk.length →
      (∀ t ∈ rest, blk.length < 2 ^ t.height) → merkleRootOf hash blk = some c.sum →
      merkleRootOf hash (pre ++ blk) =
        some (rest.foldl (fun current a => joinSubTrees hash a current) c).sum := by
  induction h with
  | nil => exact fun _ _ hc => by simpa using hc
  | @cons a rest pre A hA hrootA hlt _ ih =>
    intro c blk hpos hsmall hc
    have hlt_a : blk.length < 2 ^ a.height := hsmall a (List.mem_cons_self _ _)
    rw [List.append_assoc, List.foldl_cons]
    refine ih (by rw [List.length_append]; omega) (fun t ht => ?_)
      (merkleRootOf_append hash hA hpos hlt_a.le hrootA hc)
    calc (A ++ blk).length = 2 ^ a.height + blk.length := by rw [List.length_append, hA]
      _ < 2 ^ (a.height + 1) := by rw [Nat.pow_succ]; omega
      _ ≤ 2 ^ t.height := Nat.pow_le_pow_right (by decide) (hlt t ht)

/-- Under the invariant, `Root` is the spec's root of the covered leaves. -/
theorem Covers.root_eq {st : List SubTree} {leaves : List Bytes} (h : Covers hash st leaves) :
    root hash st = merkleRootOf hash leaves := by
  cases h with
  | nil => rfl
  | cons hlen hroot hlt hrest =>
    rw [root, hrest.root_foldl hash (hlen ▸ Nat.two_pow_pos _)
      (fun t ht => hlen ▸ Nat.pow_lt_pow_right (by decide) (hlt t ht))
      (by rw [← rootBelow_eq_merkleRootOf hash hlen.le, hroot])]

/-- `Root` after pushing any list of leaves is the spec's Merkle root of the list. -/
theorem root_pushAll (leaves : List Bytes) :
    root hash (pushAll hash leaves) = merkleRootOf hash leaves :=
  (covers_pushAll hash leaves).root_eq hash

/-- The blocks the subtrees cover: the leaves are the blocks, oldest first; each block has
`2 ^ height` leaves and the subtree's sum is its root. -/
theorem Covers.blocks {st : List SubTree} {leaves : List Bytes} (h : Covers hash st leaves) :
    ∃ blocks : List (List Bytes), blocks.reverse.flatten = leaves ∧
      blocks.map List.length = st.map (2 ^ ·.height) ∧
      st.map SubTree.sum = blocks.map fun blk => (merkleRootOf hash blk).getD [] := by
  induction h with
  | nil => exact ⟨[], rfl, rfl, rfl⟩
  | @cons s rest pre blk hlen hroot _ _ ih =>
    obtain ⟨blocks, hflat, hlens, hsums⟩ := ih
    refine ⟨blk :: blocks, by simp [hflat], by simp [hlens, hlen], ?_⟩
    rw [List.map_cons, List.map_cons, hsums, ← rootBelow_eq_merkleRootOf hash hlen.le, hroot]
    rfl

/-- The sum `Root` computes depends on the subtrees' sums only. -/
theorem root_congr {st st' : List SubTree} (h : st.map SubTree.sum = st'.map SubTree.sum) :
    root hash st = root hash st' := by
  have hfold : ∀ (next next' : List SubTree) (b b' : SubTree), b.sum = b'.sum →
      next.map SubTree.sum = next'.map SubTree.sum →
      (next.foldl (fun current a => joinSubTrees hash a current) b).sum =
        (next'.foldl (fun current a => joinSubTrees hash a current) b').sum := by
    intro next
    induction next with
    | nil => intro next' b b' hb hn; cases next' <;> simp_all
    | cons a next ih =>
      intro next' b b' hb hn
      cases next' with
      | nil => simp at hn
      | cons a' next' =>
        simp only [List.map_cons, List.cons.injEq] at hn
        exact ih next' _ _ (by simp [joinSubTrees, hb, hn.1]) hn.2
  cases st <;> cases st' <;> simp only [List.map_cons, List.map_nil, List.cons.injEq,
    reduceCtorEq, false_and] at h
  · rfl
  · simp only [root, hfold _ _ _ _ h.1 h.2]

end Builder

end FormalSia.Crypto
