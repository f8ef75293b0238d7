/-
  FormalSia.Mdm.Program — the program cache through runs of all the instructions the sources
  give: `appendSector` and `dropSectors` calls and `SwapSector` instructions.

  The program runner is outside the sources.  The spec (§4.E) runs a program's instructions
  one after another, each on the cache the previous one left, and every instruction reads the
  program's one data buffer (`p.staticData`).  A run here folds the cache calls (`Op`) and
  `Execute` of `SwapSector` instructions over the cache; a `SwapSector` step carries the
  output it is given, so a run covers every output the instructions before it produced.

  Main results:
    * `execute_never_panics` — `Execute` always returns an output: an error output that leaves
      the cache when a read fails or an offset is past the list, otherwise no error and the
      two roots exchanged, gained and removed sectors kept.
    * `execute_execute` — the same swap executed twice gives the cache back.
    * `programRun_cacheInv_readSector` — the cache invariant holds over every program run.
    * `programRun_commit_exact_of_fresh` — with fresh appends, a commit leaves a sector for
      exactly the listed roots after every program run, swaps included.
-/
import FormalSia.Mdm.CacheInvariants
import FormalSia.Mdm.SwapSector
import Mathlib.Data.List.Nodup

namespace FormalSia.Mdm

variable (env : SectorEnv) (penv : ProofEnv)

/-! ## §1. What `Execute` can do -/

/-- `swapSectors` refuses an offset past the list. -/
theorem swapSectors_error {s : Sectors} {o1 o2 : UInt64}
    (h : s.merkleRoots.length ≤ o1.toNat ∨ s.merkleRoots.length ≤ o2.toNat) :
    swapSectors env s o1 o2 = .error "offset out of bounds" :=
  if_pos h

/-- `Execute` swaps at `min a b` and `max a b`: the positions `a` and `b`, in order. -/
theorem min_max_toNat (a b : UInt64) :
    Equiv.swap (min a b).toNat (max a b).toNat = Equiv.swap a.toNat b.toNat ∧
      (min a b).toNat ≤ (max a b).toNat ∧ (max a b).toNat = max a.toNat b.toNat := by
  rcases min_max_cases a b with ⟨h1, h2, h⟩ | ⟨h1, h2, h⟩ <;> rw [h1, h2]
  · exact ⟨rfl, h, (Nat.max_eq_right h).symm⟩
  · exact ⟨Equiv.swap_comm _ _, h.le, (Nat.max_eq_left h.le).symm⟩

/-- `Execute` never panics.  When a read of the program data fails or an offset read is past
    the list, it returns an error output and leaves the cache as it was; otherwise it returns
    no error, and its cache has the roots at the two offsets read exchanged and the same
    gained and removed sectors. -/
theorem execute_never_panics (i : InstructionSwapSector)
    (staticData : UInt64 → Except String UInt64) (prevOutput : Output) (s : Sectors) :
    ∃ out s', i.execute env penv staticData prevOutput s = .ok (out, s') ∧
      (((∃ err, out = errOutput err) ∧ s' = s ∧
          ∀ a b, staticData i.sector1Offset = .ok a → staticData i.sector2Offset = .ok b →
            s.merkleRoots.length ≤ a.toNat ∨ s.merkleRoots.length ≤ b.toNat) ∨
        (out.error = none ∧ ∃ a b roots, staticData i.sector1Offset = .ok a ∧
          staticData i.sector2Offset = .ok b ∧ a.toNat < s.merkleRoots.length ∧
          b.toNat < s.merkleRoots.length ∧ s' = { s with merkleRoots := roots } ∧
          ∀ k, roots[k]? = s.merkleRoots[Equiv.swap a.toNat b.toNat k]?)) := by
  rcases h1 : staticData i.sector1Offset with err | a
  · -- the first read fails
    exact ⟨_, _, by simp only [InstructionSwapSector.execute, h1],
      .inl ⟨⟨err, rfl⟩, rfl, fun _ _ ha => nomatch ha⟩⟩
  rcases h2 : staticData i.sector2Offset with err | b
  · -- the second read fails
    exact ⟨_, _, by simp only [InstructionSwapSector.execute, h1, h2],
      .inl ⟨⟨err, rfl⟩, rfl, fun _ _ _ hb => nomatch hb⟩⟩
  obtain ⟨hswap, hle, hmax⟩ := min_max_toNat a b
  rw [execute_of_reads env penv prevOutput s h1 h2]
  by_cases hin : a.toNat < s.merkleRoots.length ∧ b.toNat < s.merkleRoots.length
  · -- both offsets in the list: the swap
    obtain ⟨roots, _x, _y, _hx, _hy, hget, hrun⟩ := swapAndProve_ok env penv i prevOutput hle
      (show (max a b).toNat < s.merkleRoots.length by omega)
    exact ⟨_, _, hrun, .inr ⟨rfl, a, b, roots, rfl, rfl, hin.1, hin.2, rfl, hswap ▸ hget⟩⟩
  · -- an offset past the list: `swapSectors` refuses it
    refine ⟨_, _, ?_, .inl ⟨⟨"offset out of bounds", rfl⟩, rfl, fun a' b' ha hb => ?_⟩⟩
    · have hout : s.merkleRoots.length ≤ (min a b).toNat ∨ s.merkleRoots.length ≤ (max a b).toNat :=
        .inr (by omega)
      simp only [InstructionSwapSector.swapAndProve, swapSectors_error env hout]
    · cases ha
      cases hb
      omega

/-- The same `SwapSector` instruction executed twice on the same program data gives the cache
    back: the second swap undoes the first, and an instruction that failed fails again. -/
theorem execute_execute (i : InstructionSwapSector) (staticData : UInt64 → Except String UInt64)
    (prevOutput prevOutput' : Output) {s s' : Sectors} {out : Output}
    (h : i.execute env penv staticData prevOutput s = .ok (out, s')) :
    ∃ out', i.execute env penv staticData prevOutput' s' = .ok (out', s) := by
  obtain ⟨out1, s1, h1, hcase⟩ := execute_never_panics env penv i staticData prevOutput s
  obtain ⟨-, rfl⟩ := Prod.mk.inj (Except.ok.inj (h1.symm.trans h))
  obtain ⟨out2, s2, h2, hcase2⟩ := execute_never_panics env penv i staticData prevOutput' s1
  refine ⟨out2, h2.trans ?_⟩
  rcases hcase with ⟨-, rfl, hfail⟩ | ⟨-, a, b, roots, ha, hb, haR, hbR, rfl, hget⟩
  · -- a failed instruction fails again on the same cache
    rcases hcase2 with ⟨-, rfl, -⟩ | ⟨-, a', b', _, ha', hb', ha'R, hb'R, -⟩
    · rfl
    · have := hfail a' b' ha' hb'
      omega
  · -- the second swap undoes the first
    have hin (k : Nat) (hσ : Equiv.swap a.toNat b.toNat k < s.merkleRoots.length) :
        k < roots.length := by
      have hk' : roots[k]? ≠ none := by rw [hget, Ne, List.getElem?_eq_none_iff]; omega
      rwa [Ne, List.getElem?_eq_none_iff, Nat.not_le] at hk'
    rcases hcase2 with ⟨-, -, hfail2⟩ | ⟨-, a', b', roots', ha', hb', -, -, rfl, hget'⟩
    · have haR' := hin a.toNat (by rw [Equiv.swap_apply_left]; exact hbR)
      have hbR' := hin b.toNat (by rw [Equiv.swap_apply_right]; exact haR)
      have := hfail2 a b ha hb
      simp only at this
      omega
    · obtain rfl : a' = a := Except.ok.inj (ha'.symm.trans ha)
      obtain rfl : b' = b := Except.ok.inj (hb'.symm.trans hb)
      have hroots : roots' = s.merkleRoots :=
        List.ext_getElem? fun k => by rw [hget', hget, Equiv.swap_apply_self]
      rw [hroots]

/-- `Swap(0, 2)` on the roots `[1, 2, 3]`, its offsets read from the data words at 0 and 16,
    gives `[3, 2, 1]`; executed again it gives `[1, 2, 3]` back. -/
theorem swap_twice_scenario :
    let env : SectorEnv := ⟨1, fun _ => 0, fun _ => 0⟩
    let penv : ProofEnv := ⟨fun _ _ _ => [], fun _ => []⟩
    let data : UInt64 → Except String UInt64 := fun o => .ok (o / 8)
    let i : InstructionSwapSector := ⟨false, 0, 16⟩
    i.execute env penv data ⟨0, 0, [], [], none⟩ (newSectors [1, 2, 3]) =
        .ok (⟨0, 0, [], [], none⟩, { newSectors [1, 2, 3] with merkleRoots := [3, 2, 1] }) ∧
      ∃ out, i.execute env penv data ⟨0, 0, [], [], none⟩
        { newSectors [1, 2, 3] with merkleRoots := [3, 2, 1] } = .ok (out, newSectors [1, 2, 3]) :=
  ⟨rfl, execute_execute ⟨1, fun _ => 0, fun _ => 0⟩ ⟨fun _ _ _ => [], fun _ => []⟩ ⟨false, 0, 16⟩
    (fun o => .ok (o / 8)) ⟨0, 0, [], [], none⟩ ⟨0, 0, [], [], none⟩ rfl⟩

/-- Every position of `l'` reads `l` through an involution of positions: the two lists have
    the same members, and `l'` has no duplicate when `l` has none. -/
theorem mem_nodup_of_getElem?_involutive {l l' : List Hash} {σ : Nat → Nat}
    (hσ : ∀ k, σ (σ k) = k) (h : ∀ k, l'[k]? = l[σ k]?) :
    (∀ r, r ∈ l' ↔ r ∈ l) ∧ (l.Nodup → l'.Nodup) := by
  refine ⟨fun r => ⟨fun hr => ?_, fun hr => ?_⟩, fun hnd => ?_⟩
  · obtain ⟨k, hk⟩ := List.mem_iff_getElem?.mp hr
    exact List.mem_iff_getElem?.mpr ⟨σ k, (h k).symm.trans hk⟩
  · obtain ⟨k, hk⟩ := List.mem_iff_getElem?.mp hr
    exact List.mem_iff_getElem?.mpr ⟨σ k, by rw [h, hσ, hk]⟩
  · rw [List.nodup_iff_getElem?_ne_getElem?]
    intro i j hij hj heq
    have hi : σ i < l.length := by
      have hi' : l'[i]? ≠ none := by rw [Ne, List.getElem?_eq_none_iff]; omega
      rw [h, Ne, List.getElem?_eq_none_iff] at hi'
      omega
    have hσij := congrArg σ (List.getElem?_inj (j := σ j) hi hnd (by rw [← h, ← h, heq]))
    rw [hσ, hσ] at hσij
    omega

/-! ## §2. Program runs -/

/-- An instruction of a program, as the cache sees it: a cache call, or a `SwapSector`
    instruction with the output the instruction before it produced. -/
inductive ProgramOp where
  | call (op : Op)
  | swapSector (i : InstructionSwapSector) (prevOutput : Output)

variable (staticData : UInt64 → Except String UInt64)

/-- One instruction on the cache the previous one left.  `Execute` never panics
    (`execute_never_panics`), so its `.error` branch is never taken. -/
def programStep (s : Sectors) : ProgramOp → Sectors
  | .call op => step env s op
  | .swapSector i prevOutput =>
    match i.execute env penv staticData prevOutput s with
    | .ok (_, s') => s'
    | .error _ => s

/-- Modelled from the spec: a program run (§4.E), its instructions one after another, all
    reading the program's data. -/
def programRun (s : Sectors) (ops : List ProgramOp) : Sectors :=
  ops.foldl (programStep env penv staticData) s

/-- A `SwapSector` step leaves the cache, or lists the same roots in another order, without
    a duplicate when there was none, and keeps the gained and removed sectors. -/
theorem programStep_swapSector (i : InstructionSwapSector) (prevOutput : Output) (s : Sectors) :
    programStep env penv staticData s (.swapSector i prevOutput) = s ∨
      ∃ roots : List Hash,
        programStep env penv staticData s (.swapSector i prevOutput) =
          { s with merkleRoots := roots } ∧
        (∀ r, r ∈ roots ↔ r ∈ s.merkleRoots) ∧ (s.merkleRoots.Nodup → roots.Nodup) := by
  obtain ⟨out, s', hex, hcase⟩ := execute_never_panics env penv i staticData prevOutput s
  simp only [programStep, hex]
  rcases hcase with ⟨-, rfl, -⟩ | ⟨-, a, b, roots, -, -, -, -, rfl, hget⟩
  · exact .inl rfl
  · exact .inr ⟨roots, rfl,
      mem_nodup_of_getElem?_involutive (Equiv.swap_apply_self _ _) hget⟩

theorem cacheInv_programStep {s : Sectors} (op : ProgramOp) (h : CacheInv env s) :
    CacheInv env (programStep env penv staticData s op) := by
  cases op with
  | call op => exact cacheInv_step env op h
  | swapSector i prevOutput =>
    rcases programStep_swapSector env penv staticData i prevOutput s with
      hs | ⟨roots, hs, hmem, -⟩ <;> rw [hs]
    · exact h
    · exact ⟨h.disjoint, fun r d hr => (hmem r).mpr (h.gained_mem r d hr), h.content⟩

theorem cacheInv_programRun {s : Sectors} (ops : List ProgramOp) (h : CacheInv env s) :
    CacheInv env (programRun env penv staticData s ops) := by
  induction ops generalizing s with
  | nil => exact h
  | cons op ops ih => exact ih (cacheInv_programStep env penv staticData op h)

/-- Every program run, of `appendSector`, `dropSectors` and `SwapSector` instructions in any
    order, over any program data, keeps the cache invariant from `newSectors` of any root
    list: what `readSector` serves from the cache is a full sector addressed by the root
    asked for. -/
theorem programRun_cacheInv_readSector (roots : List Hash) (ops : List ProgramOp)
    (host : Hash → Except String Bytes) :
    let s := programRun env penv staticData (newSectors roots) ops
    CacheInv env s ∧ ∀ r d, s.sectorsGained r = some d →
      readSector host s r = .ok d ∧ d.length = env.sectorSize ∧ env.merkleRoot d = r := by
  have h := cacheInv_programRun env penv staticData ops (cacheInv_newSectors env roots)
  exact ⟨h, fun r d hr => ⟨readSector_of_gained env host h hr, h.content r d hr⟩⟩

/-! ## §3. Fresh appends: the commit stays exact -/

/-- The cache calls of a program, in order. -/
def ProgramOp.calls : List ProgramOp → List Op
  | [] => []
  | .call op :: ops => op :: ProgramOp.calls ops
  | .swapSector _ _ :: ops => ProgramOp.calls ops

/-- A swap keeps the fresh-append invariant up to order: it lists the same roots. -/
theorem freshPermInv_swapSector {roots A : List Hash} {s : Sectors} (i : InstructionSwapSector)
    (prevOutput : Output) (hnd : (roots ++ A).Nodup) (h : FreshPermInv roots A s) :
    FreshPermInv roots A (programStep env penv staticData s (.swapSector i prevOutput)) := by
  rcases programStep_swapSector env penv staticData i prevOutput s with hs | ⟨l, hs, hmem, hnd'⟩ <;>
    rw [hs]
  · exact h
  · refine ⟨List.subperm_of_subset (hnd' (nodup_of_subperm h.subperm hnd))
      fun r hr => h.subperm.subset ((hmem r).mp hr), fun r hr => ?_, fun r hr => ?_, h.other⟩
    · simpa only [hmem] using h.base r hr
    · simpa only [hmem] using h.appended r hr

theorem freshPermInv_programStep {roots A : List Hash} {s : Sectors} (op : ProgramOp)
    (hnd : (roots ++ A ++ appendedRoots env (ProgramOp.calls [op])).Nodup)
    (h : FreshPermInv roots A s) :
    FreshPermInv roots (A ++ appendedRoots env (ProgramOp.calls [op]))
      (programStep env penv staticData s op) := by
  cases op with
  | call op => exact step_fresh env (freshPermInv_appended env) freshPermInv_dropped op hnd h
  | swapSector i prevOutput =>
    simp only [ProgramOp.calls, appendedRoots, List.append_nil] at hnd ⊢
    exact freshPermInv_swapSector env penv staticData i prevOutput hnd h

theorem programOp_calls_cons (op : ProgramOp) (ops : List ProgramOp) :
    appendedRoots env (ProgramOp.calls (op :: ops)) =
      appendedRoots env (ProgramOp.calls [op]) ++ appendedRoots env (ProgramOp.calls ops) := by
  cases op with
  | call op => exact appendedRoots_cons env op _
  | swapSector => rfl

theorem freshPermInv_programRun {roots A : List Hash} {s : Sectors} (ops : List ProgramOp)
    (hnd : (roots ++ A ++ appendedRoots env (ProgramOp.calls ops)).Nodup)
    (h : FreshPermInv roots A s) :
    FreshPermInv roots (A ++ appendedRoots env (ProgramOp.calls ops))
      (programRun env penv staticData s ops) := by
  induction ops generalizing A s with
  | nil => simpa [ProgramOp.calls, appendedRoots] using h
  | cons op ops ih =>
    rw [programOp_calls_cons, ← List.append_assoc] at hnd ⊢
    exact ih (by simpa only [List.append_assoc] using hnd)
      (freshPermInv_programStep env penv staticData op
        (hnd.sublist (List.sublist_append_left _ _)) h)

/-- When the base roots have no duplicate, no root is appended twice and no appended root is a
    base root, every program run, swaps included, leaves an exact cache: the base roots not
    marked removed and the gained roots are the listed roots, so a commit onto a store holding
    the base sectors leaves a sector for every listed root and for no other. -/
theorem programRun_commit_exact_of_fresh (roots : List Hash) (ops : List ProgramOp)
    (hnd : (roots ++ appendedRoots env (ProgramOp.calls ops)).Nodup)
    (store : Hash → Option Bytes) (hstore : ∀ r, (store r).isSome ↔ r ∈ roots) :
    let s := programRun env penv staticData (newSectors roots) ops
    (∀ r, ((r ∈ roots ∧ s.sectorsRemoved r = false) ∨ (s.sectorsGained r).isSome) ↔
      r ∈ s.merkleRoots) ∧
    ∀ r, (commit store s r).isSome ↔ r ∈ s.merkleRoots := by
  have h := freshPermInv_programRun env penv staticData ops (by simpa using hnd)
    (freshInv_newSectors roots).toFreshPermInv
  refine ⟨h.exact, fun r => ?_⟩
  rw [← h.exact, commit_isSome, ← hstore]
  cases (programRun env penv staticData (newSectors roots) ops).sectorsRemoved r <;>
    simp [or_comm]

/-- On the base root 0, two fresh one-byte sectors appended, the roots at 0 and 1 swapped
    (data words 0 and 1 at offsets 0 and 8), then one sector dropped: the store holds sectors
    for exactly the roots 1 and 0. -/
theorem byteSectors_swap_commit_exact :
    let penv : ProofEnv := ⟨fun _ _ _ => [], fun _ => []⟩
    let data : UInt64 → Except String UInt64 := fun o => .ok (o / 8)
    let ops : List ProgramOp := [.call (.appendSector [1]), .call (.appendSector [2]),
      .swapSector ⟨false, 0, 8⟩ ⟨0, 0, [], [], none⟩, .call (.dropSectors 1)]
    let store : Hash → Option Bytes := fun r => if r = 0 then some [0] else none
    ([0] ++ appendedRoots byteSectorEnv (ProgramOp.calls ops)).Nodup ∧
    (∀ r, (store r).isSome ↔ r ∈ [(0 : Hash)]) ∧
    (let s := programRun byteSectorEnv penv data (newSectors [0]) ops
    (∀ r, ((r ∈ [(0 : Hash)] ∧ s.sectorsRemoved r = false) ∨ (s.sectorsGained r).isSome) ↔
      r ∈ s.merkleRoots) ∧
    ∀ r, (commit store s r).isSome ↔ r ∈ s.merkleRoots) ∧
    (programRun byteSectorEnv penv data (newSectors [0]) ops).merkleRoots = [1, 0] :=
  ⟨by decide, fun r => by by_cases h : r = 0 <;> simp [h],
    programRun_commit_exact_of_fresh byteSectorEnv ⟨fun _ _ _ => [], fun _ => []⟩
      (fun o => .ok (o / 8)) _ _ (by decide) _ fun r => by by_cases h : r = 0 <;> simp [h],
    rfl⟩

end FormalSia.Mdm
