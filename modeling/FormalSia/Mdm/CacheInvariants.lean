/-
  FormalSia.Mdm.CacheInvariants — what every reachable program cache satisfies, and where
  the gained map and the removed set lose count.

  Main results:
    * `run_cacheInv_readSector` — from `newSectors` of any root list, through any run of
      `appendSector` and `dropSectors`, gained and removed roots stay disjoint, every gained
      root stays listed, and every gained sector is a full sector addressed by its own
      Merkle root; so what `readSector` serves from the cache is such a sector.
    * `run_appends_dropSectors_merkleRoots` — from any cache, appending `k` full sectors and
      dropping `k` restores the root list.
    * `run_appends_dropSectors_of_fresh` — it restores the whole cache when the appended
      roots are distinct and were neither gained nor removed.
    * `appendSector_twice_dropSectors_once_loses_sector`, `reappend_dropSectors_leaks_sector`
      — a map and a set cannot count a root twice: a sector appended twice and dropped once
      is no longer staged although its root is still listed, and a base root dropped,
      re-appended and dropped again is no longer deleted by the commit.
    * `run_commit_exact_of_fresh` — when no root is appended twice and no appended root is a
      base root, the cache is exact: a commit leaves a sector for every listed root and for
      no other.
-/
import FormalSia.Mdm.Sectors

namespace FormalSia.Mdm

variable (env : SectorEnv)

/-! ## §1. The cache invariant -/

/-- The invariant of every reachable cache. -/
structure CacheInv (s : Sectors) : Prop where
  /-- A gained root is not marked removed. -/
  disjoint : ∀ r d, s.sectorsGained r = some d → s.sectorsRemoved r = false
  /-- A gained root is still in the root list. -/
  gained_mem : ∀ r d, s.sectorsGained r = some d → r ∈ s.merkleRoots
  /-- A gained sector is full and addressed by its own Merkle root. -/
  content : ∀ r d, s.sectorsGained r = some d → d.length = env.sectorSize ∧ env.merkleRoot d = r

theorem cacheInv_newSectors (roots : List Hash) : CacheInv env (newSectors roots) :=
  ⟨by simp [newSectors], by simp [newSectors], by simp [newSectors]⟩

/-- A gained entry after an append is the appended sector or an older entry. -/
theorem appended_sectorsGained {s : Sectors} {d d' : Bytes} {r : Hash}
    (hr : (appended env s d).sectorsGained r = some d') :
    (r = env.merkleRoot d ∧ d' = d) ∨ (r ≠ env.merkleRoot d ∧ s.sectorsGained r = some d') := by
  by_cases hx : r = env.merkleRoot d
  · subst hx; simp [appended] at hr; exact .inl ⟨rfl, hr.symm⟩
  · simp [appended, hx] at hr; exact .inr ⟨hx, hr⟩

theorem cacheInv_appended {s : Sectors} {d : Bytes} (hd : d.length = env.sectorSize)
    (h : CacheInv env s) : CacheInv env (appended env s d) := by
  refine ⟨fun r d' hr => ?_, fun r d' hr => ?_, fun r d' hr => ?_⟩ <;>
    rcases appended_sectorsGained env hr with ⟨rfl, rfl⟩ | ⟨hx, hr⟩
  · simp [appended]
  · simp [appended, hx, h.disjoint r d' hr]
  · simp [appended]
  · simp [appended, h.gained_mem r d' hr]
  · exact ⟨hd, rfl⟩
  · exact h.content r d' hr

/-- A gained entry after a drop is an older entry whose root was not dropped. -/
theorem dropped_sectorsGained {s : Sectors} {n : Nat} {r : Hash} {d : Bytes}
    (hr : (dropped s n).sectorsGained r = some d) :
    r ∉ s.merkleRoots.drop (s.merkleRoots.length - n) ∧ s.sectorsGained r = some d := by
  rw [dropped_sectorsGained_apply] at hr
  split at hr
  · cases hr
  · exact ⟨‹_›, hr⟩

theorem cacheInv_dropped {s : Sectors} (n : Nat) (h : CacheInv env s) :
    CacheInv env (dropped s n) := by
  refine ⟨fun r d hr => ?_, fun r d hr => ?_, fun r d hr => ?_⟩ <;>
    obtain ⟨hn, hr⟩ := dropped_sectorsGained hr
  · rw [dropped, foldl_dropRoot_sectorsRemoved_of_not_mem hn]
    exact h.disjoint r d hr
  · have hm := h.gained_mem r d hr
    rw [← List.take_append_drop (s.merkleRoots.length - n) s.merkleRoots, List.mem_append] at hm
    rw [dropped_merkleRoots]
    exact hm.resolve_right hn
  · exact h.content r d hr

theorem cacheInv_step {s : Sectors} (op : Op) (h : CacheInv env s) :
    CacheInv env (step env s op) := by
  cases op with
  | appendSector d =>
    rw [step_appendSector]
    split
    · exact cacheInv_appended env ‹_› h
    · exact h
  | dropSectors n =>
    rw [step_dropSectors]
    split
    · exact cacheInv_dropped env n h
    · exact h

theorem cacheInv_run {s : Sectors} (ops : List Op) (h : CacheInv env s) :
    CacheInv env (run env s ops) := by
  induction ops generalizing s with
  | nil => exact h
  | cons op ops ih => exact ih (cacheInv_step env op h)

/-- Under the invariant a gained root is listed, so `readSector` serves it from the cache. -/
theorem readSector_of_gained (host : Hash → Except String Bytes) {s : Sectors} {r : Hash}
    {d : Bytes} (h : CacheInv env s) (hr : s.sectorsGained r = some d) :
    readSector host s r = .ok d := by
  have hs : hasSector s r = true := by simpa [hasSector] using h.gained_mem r d hr
  simp [readSector, hs, hr]

/-- Every reachable cache keeps the invariant, and serves from the cache only full sectors
    addressed by the root asked for. -/
theorem run_cacheInv_readSector (roots : List Hash) (ops : List Op)
    (host : Hash → Except String Bytes) :
    let s := run env (newSectors roots) ops
    CacheInv env s ∧ ∀ r d, s.sectorsGained r = some d →
      readSector host s r = .ok d ∧ d.length = env.sectorSize ∧ env.merkleRoot d = r := by
  have h := cacheInv_run env ops (cacheInv_newSectors env roots)
  exact ⟨h, fun r d hr => ⟨readSector_of_gained env host h hr, h.content r d hr⟩⟩

/-! ## §2. Appending `k` sectors, then dropping `k` -/

theorem run_appendSectors {s : Sectors} {ds : List Bytes}
    (hds : ∀ d ∈ ds, d.length = env.sectorSize) :
    run env s (ds.map .appendSector) = ds.foldl (appended env) s := by
  induction ds generalizing s with
  | nil => rfl
  | cons d ds ih =>
    simp only [List.map_cons, run_cons, List.foldl_cons, step_appendSector,
      hds d (List.mem_cons_self _ _), if_pos]
    exact ih fun d' hd' => hds d' (List.mem_cons_of_mem _ hd')

theorem foldl_appended_merkleRoots (s : Sectors) (ds : List Bytes) :
    (ds.foldl (appended env) s).merkleRoots = s.merkleRoots ++ ds.map env.merkleRoot := by
  induction ds generalizing s with
  | nil => simp
  | cons d ds ih => simp [ih, appended]

theorem foldl_appended_sectorsGained_of_not_mem (s : Sectors) (ds : List Bytes) {r : Hash}
    (hr : r ∉ ds.map env.merkleRoot) :
    (ds.foldl (appended env) s).sectorsGained r = s.sectorsGained r := by
  induction ds generalizing s with
  | nil => rfl
  | cons d ds ih =>
    simp only [List.map_cons, List.mem_cons, not_or] at hr
    simp [ih _ hr.2, appended, hr.1]

theorem foldl_appended_sectorsGained_isSome (s : Sectors) (ds : List Bytes) {r : Hash}
    (hr : r ∈ ds.map env.merkleRoot) :
    ((ds.foldl (appended env) s).sectorsGained r).isSome := by
  induction ds generalizing s with
  | nil => simp at hr
  | cons d ds ih =>
    by_cases hm : r ∈ ds.map env.merkleRoot
    · exact ih _ hm
    · have hrd : r = env.merkleRoot d := by simpa [hm] using hr
      subst hrd
      rw [List.foldl_cons, foldl_appended_sectorsGained_of_not_mem env _ ds hm]
      simp [appended]

theorem foldl_appended_sectorsRemoved (s : Sectors) (ds : List Bytes)
    (h : ∀ d ∈ ds, s.sectorsRemoved (env.merkleRoot d) = false) :
    (ds.foldl (appended env) s).sectorsRemoved = s.sectorsRemoved := by
  induction ds generalizing s with
  | nil => rfl
  | cons d ds ih =>
    have h1 : (appended env s d).sectorsRemoved = s.sectorsRemoved :=
      Function.update_eq_self_iff.mpr (h d (List.mem_cons_self _ _)).symm
    rw [List.foldl_cons, ih _ (by rw [h1]; exact fun d' hd' => h d' (List.mem_cons_of_mem _ hd')), h1]

/-- Dropping distinct roots that are all gained marks none of them removed. -/
theorem foldl_dropRoot_sectorsRemoved_of_gained {l : List Hash} (hl : l.Nodup) (s : Sectors)
    (h : ∀ x ∈ l, (s.sectorsGained x).isSome) :
    (l.foldl dropRoot s).sectorsRemoved = s.sectorsRemoved := by
  induction l generalizing s with
  | nil => rfl
  | cons x xs ih =>
    have hx : x ∉ xs := (List.nodup_cons.mp hl).1
    have hd : dropRoot s x =
        { s with sectorsGained := Function.update s.sectorsGained x none } := by
      simp [dropRoot, h x (List.mem_cons_self _ _)]
    rw [List.foldl_cons, hd, ih (List.nodup_cons.mp hl).2]
    intro y hy
    have hyx : y ≠ x := fun e => hx (e ▸ hy)
    simpa [Function.update_apply, hyx] using h y (List.mem_cons_of_mem _ hy)

/-- The drop after `k` appends pops exactly the `k` appended roots. -/
theorem dropped_after_appends (s : Sectors) (ds : List Bytes) :
    dropped (ds.foldl (appended env) s) ds.length =
      (ds.map env.merkleRoot).foldl dropRoot
        { ds.foldl (appended env) s with merkleRoots := s.merkleRoots } := by
  simp [dropped, foldl_appended_merkleRoots]

/-- From any cache, appending `k` full sectors and dropping `k` restores the root list. -/
theorem run_appends_dropSectors_merkleRoots (s : Sectors) (ds : List Bytes)
    (hds : ∀ d ∈ ds, d.length = env.sectorSize) :
    (run env s (ds.map .appendSector ++ [.dropSectors ds.length])).merkleRoots =
      s.merkleRoots := by
  rw [run_append, run_appendSectors env hds]
  simp [step_dropSectors, foldl_appended_merkleRoots, dropped_after_appends,
    foldl_dropRoot_merkleRoots]

/-- One-byte sectors whose Merkle root is the byte's value. -/
def byteSectorEnv : SectorEnv :=
  { sectorSize := 1, merkleRoot := fun d => BitVec.ofNat 256 (d.headD 0).toNat,
    cachedMerkleRoot := fun _ => 0 }

/-- The same sector appended twice and both dropped: the root list is back. -/
theorem byteSectors_twice_dropped_merkleRoots :
    (∀ d ∈ ([[1], [1]] : List Bytes), d.length = byteSectorEnv.sectorSize) ∧
    (run byteSectorEnv (newSectors [0]) (([[1], [1]] : List Bytes).map .appendSector ++
      [.dropSectors 2])).merkleRoots = [0] :=
  ⟨by decide, run_appends_dropSectors_merkleRoots byteSectorEnv _ _ (by decide)⟩

/-- Appending `k` full sectors with distinct roots, none of them gained or removed before,
    and dropping `k` restores the whole cache. -/
theorem run_appends_dropSectors_of_fresh (s : Sectors) (ds : List Bytes)
    (hds : ∀ d ∈ ds, d.length = env.sectorSize) (hnd : (ds.map env.merkleRoot).Nodup)
    (hfresh : ∀ d ∈ ds, s.sectorsGained (env.merkleRoot d) = none ∧
      s.sectorsRemoved (env.merkleRoot d) = false) :
    run env s (ds.map .appendSector ++ [.dropSectors ds.length]) = s := by
  rw [run_append, run_appendSectors env hds]
  simp only [run_cons, run_nil, step_dropSectors, foldl_appended_merkleRoots,
    List.length_append, List.length_map, Nat.le_add_left, if_true, dropped_after_appends]
  refine Sectors.ext ?_ ?_ ?_
  · rw [foldl_dropRoot_sectorsRemoved_of_gained hnd]
    · exact foldl_appended_sectorsRemoved env s ds fun d hd => (hfresh d hd).2
    · exact fun x hx => foldl_appended_sectorsGained_isSome env s ds hx
  · funext r
    rw [foldl_dropRoot_sectorsGained]
    split
    · obtain ⟨d, hd, rfl⟩ := List.mem_map.mp ‹_›
      exact ((hfresh d hd).1).symm
    · exact foldl_appended_sectorsGained_of_not_mem env s ds ‹_›
  · rw [foldl_dropRoot_merkleRoots]

/-- Two fresh sectors appended to the base root 0 and dropped: the cache is back. -/
theorem byteSectors_fresh_dropped :
    (∀ d ∈ ([[1], [2]] : List Bytes), d.length = byteSectorEnv.sectorSize) ∧
    (([[1], [2]] : List Bytes).map byteSectorEnv.merkleRoot).Nodup ∧
    (∀ d ∈ ([[1], [2]] : List Bytes),
      (newSectors [0]).sectorsGained (byteSectorEnv.merkleRoot d) = none ∧
      (newSectors [0]).sectorsRemoved (byteSectorEnv.merkleRoot d) = false) ∧
    run byteSectorEnv (newSectors [0])
      (([[1], [2]] : List Bytes).map .appendSector ++ [.dropSectors 2]) = newSectors [0] :=
  ⟨by decide, by decide, fun _ _ => ⟨rfl, rfl⟩,
    run_appends_dropSectors_of_fresh byteSectorEnv _ _ (by decide) (by decide)
      fun _ _ => ⟨rfl, rfl⟩⟩

/-! ## §3. Where the two maps lose count -/

/-- A sector appended twice and dropped once: its root is still listed but no longer
    staged, so `readSector` asks the host for it, and a commit onto a store that never held
    it leaves the listed root without a sector. -/
theorem appendSector_twice_dropSectors_once_loses_sector (host : Hash → Except String Bytes) :
    let d := List.replicate env.sectorSize (0 : UInt8)
    let s := run env (newSectors []) [.appendSector d, .appendSector d, .dropSectors 1]
    s.merkleRoots = [env.merkleRoot d] ∧ s.sectorsGained (env.merkleRoot d) = none ∧
      readSector host s (env.merkleRoot d) = host (env.merkleRoot d) ∧
      commit (fun _ => none) s (env.merkleRoot d) = none := by
  simp [step_appendSector, step_dropSectors, appended, dropped, dropRoot, readSector,
    hasSector, commit, newSectors]

/-- A base root dropped, re-appended and dropped again: the root list is back where the
    first drop left it, but the root is no longer marked removed, so the commit keeps
    whatever sector the store holds for it although no root refers to it. -/
theorem reappend_dropSectors_leaks_sector (store : Hash → Option Bytes) :
    let d := List.replicate env.sectorSize (0 : UInt8)
    let s := run env (newSectors [env.merkleRoot d]) [.dropSectors 1]
    let s' := run env s [.appendSector d, .dropSectors 1]
    s.merkleRoots = [] ∧ s'.merkleRoots = [] ∧
      s.sectorsRemoved (env.merkleRoot d) = true ∧ s'.sectorsRemoved (env.merkleRoot d) = false ∧
      commit store s (env.merkleRoot d) = none ∧
      commit store s' (env.merkleRoot d) = store (env.merkleRoot d) := by
  simp [step_appendSector, step_dropSectors, appended, dropped, dropRoot, commit, newSectors]

/-! ## §4. Fresh appends: where the cache is exact -/

/-- The roots the accepted `appendSector` calls of a run push, in order. -/
def appendedRoots : List Op → List Hash
  | [] => []
  | .appendSector d :: ops =>
    (if d.length = env.sectorSize then [env.merkleRoot d] else []) ++ appendedRoots ops
  | .dropSectors _ :: ops => appendedRoots ops

/-- The cache of a run over the base roots `roots` that has appended the roots `A`, each
    appended root new: a base root is never gained and is removed exactly when it is no
    longer listed; an appended root is never removed and is gained exactly while listed. -/
structure FreshInv (roots A : List Hash) (s : Sectors) : Prop where
  sublist : s.merkleRoots.Sublist (roots ++ A)
  base : ∀ r ∈ roots, s.sectorsGained r = none ∧ (s.sectorsRemoved r = true ↔ r ∉ s.merkleRoots)
  appended : ∀ r ∈ A, s.sectorsRemoved r = false ∧ ((s.sectorsGained r).isSome ↔ r ∈ s.merkleRoots)
  other : ∀ r, r ∉ roots → r ∉ A → s.sectorsGained r = none ∧ s.sectorsRemoved r = false

theorem freshInv_newSectors (roots : List Hash) : FreshInv roots [] (newSectors roots) :=
  ⟨by simp [newSectors], fun r hr => by simp [newSectors, hr], by simp,
    fun _ _ _ => ⟨rfl, rfl⟩⟩

/-- The fresh-append invariant up to the order of the list: the listed roots are, in some
    order, a sublist of the base and the appended roots.  A swap keeps it. -/
structure FreshPermInv (roots A : List Hash) (s : Sectors) : Prop where
  subperm : s.merkleRoots.Subperm (roots ++ A)
  base : ∀ r ∈ roots, s.sectorsGained r = none ∧ (s.sectorsRemoved r = true ↔ r ∉ s.merkleRoots)
  appended : ∀ r ∈ A, s.sectorsRemoved r = false ∧ ((s.sectorsGained r).isSome ↔ r ∈ s.merkleRoots)
  other : ∀ r, r ∉ roots → r ∉ A → s.sectorsGained r = none ∧ s.sectorsRemoved r = false

theorem FreshInv.toFreshPermInv {roots A : List Hash} {s : Sectors} (h : FreshInv roots A s) :
    FreshPermInv roots A s :=
  ⟨h.sublist.subperm, h.base, h.appended, h.other⟩

/-- A list that is, up to order, a sublist of a list without duplicates has none. -/
theorem nodup_of_subperm {l l' : List Hash} (h : l.Subperm l') (hnd : l'.Nodup) : l.Nodup :=
  let ⟨_, hp, hs⟩ := h
  (hnd.sublist hs).perm hp

theorem freshPermInv_appended {roots A : List Hash} {s : Sectors} {d : Bytes}
    (hn : env.merkleRoot d ∉ roots ++ A) (h : FreshPermInv roots A s) :
    FreshPermInv roots (A ++ [env.merkleRoot d]) (appended env s d) := by
  have hroots : ∀ r ∈ roots, r ≠ env.merkleRoot d :=
    fun r hr e => hn (List.mem_append_left _ (e ▸ hr))
  have hA : ∀ r ∈ A, r ≠ env.merkleRoot d := fun r hr e => hn (List.mem_append_right _ (e ▸ hr))
  refine ⟨?_, fun r hr => ?_, fun r hr => ?_, fun r hr hA' => ?_⟩
  · rw [← List.append_assoc]
    exact (List.subperm_append_right _).mpr h.subperm
  · simpa [appended, hroots r hr] using h.base r hr
  · rcases List.mem_append.mp hr with hr | hr
    · simpa [appended, hA r hr] using h.appended r hr
    · simp only [List.mem_singleton] at hr
      subst hr
      simp [appended]
  · have hne : r ≠ env.merkleRoot d := fun e => hA' (by simp [e])
    simpa [appended, hne] using h.other r hr (fun e => hA' (List.mem_append_left _ e))

theorem freshInv_appended {roots A : List Hash} {s : Sectors} {d : Bytes}
    (hn : env.merkleRoot d ∉ roots ++ A) (h : FreshInv roots A s) :
    FreshInv roots (A ++ [env.merkleRoot d]) (appended env s d) := by
  have h' := freshPermInv_appended env hn h.toFreshPermInv
  refine ⟨?_, h'.base, h'.appended, h'.other⟩
  rw [← List.append_assoc]
  exact h.sublist.append (List.Sublist.refl _)

theorem freshPermInv_dropped {roots A : List Hash} {s : Sectors} (n : Nat)
    (hnd : (roots ++ A).Nodup) (h : FreshPermInv roots A s) :
    FreshPermInv roots A (dropped s n) := by
  set k := s.merkleRoots.length - n
  have hsplit := List.take_append_drop k s.merkleRoots
  have hndmr : s.merkleRoots.Nodup := nodup_of_subperm h.subperm hnd
  have hmem : ∀ r, r ∈ s.merkleRoots ↔ r ∈ s.merkleRoots.take k ∨ r ∈ s.merkleRoots.drop k := by
    intro r; rw [← List.mem_append, hsplit]
  have hndsplit : (s.merkleRoots.take k ++ s.merkleRoots.drop k).Nodup := by rwa [hsplit]
  have hdisj : ∀ r ∈ s.merkleRoots.drop k, r ∉ s.merkleRoots.take k := fun r hq hp =>
    (List.pairwise_append.mp hndsplit).2.2 r hp r hq rfl
  refine ⟨dropped_merkleRoots s n ▸ (List.take_sublist _ _).subperm.trans h.subperm, fun r hr => ?_,
    fun r hr => ?_, fun r hr hA => ?_⟩ <;>
    rw [dropped_sectorsGained_apply, dropped_sectorsRemoved_apply s n hndmr]
  · obtain ⟨hgn, hrem⟩ := h.base r hr
    rw [dropped_merkleRoots]
    by_cases hq : r ∈ s.merkleRoots.drop k
    · simp [hq, hgn, hdisj r hq]
    · simpa [hq, hgn, hmem r] using hrem
  · obtain ⟨hrf, hgi⟩ := h.appended r hr
    rw [dropped_merkleRoots]
    by_cases hq : r ∈ s.merkleRoots.drop k
    · have hs : (s.sectorsGained r).isSome := hgi.mpr ((hmem r).mpr (.inr hq))
      simp [hq, hrf, hdisj r hq, ← Option.not_isSome, hs]
    · simpa [hq, hrf, hmem r] using hgi
  · have hq : r ∉ s.merkleRoots.drop k := fun hq =>
      (List.mem_append.mp (h.subperm.subset ((hmem r).mpr (.inr hq)))).elim hr hA
    simpa [hq] using h.other r hr hA

theorem freshInv_dropped {roots A : List Hash} {s : Sectors} (n : Nat)
    (hnd : (roots ++ A).Nodup) (h : FreshInv roots A s) : FreshInv roots A (dropped s n) :=
  have h' := freshPermInv_dropped n hnd h.toFreshPermInv
  ⟨dropped_merkleRoots s n ▸ (List.take_sublist _ _).trans h.sublist, h'.base, h'.appended,
    h'.other⟩

theorem appendedRoots_cons (op : Op) (ops : List Op) :
    appendedRoots env (op :: ops) = appendedRoots env [op] ++ appendedRoots env ops := by
  cases op <;> simp [appendedRoots]

/-- A property of the appended roots and the cache that an accepted append of a fresh root
    and an accepted drop keep is kept by every call. -/
theorem step_fresh {roots A : List Hash} {s : Sectors} {P : List Hash → Sectors → Prop}
    (happ : ∀ {A s d}, env.merkleRoot d ∉ roots ++ A → P A s →
      P (A ++ [env.merkleRoot d]) (appended env s d))
    (hdrop : ∀ {A s} (n : Nat), (roots ++ A).Nodup → P A s → P A (dropped s n)) (op : Op)
    (hnd : (roots ++ A ++ appendedRoots env [op]).Nodup) (h : P A s) :
    P (A ++ appendedRoots env [op]) (step env s op) := by
  cases op with
  | appendSector d =>
    rw [step_appendSector]
    by_cases hd : d.length = env.sectorSize
    · simp only [appendedRoots, hd, if_true, List.append_nil] at hnd ⊢
      exact happ
        (fun hm => (List.pairwise_append.mp hnd).2.2 _ hm _ (List.mem_singleton_self _) rfl) h
    · simpa [appendedRoots, hd] using h
  | dropSectors n =>
    simp only [appendedRoots, List.append_nil] at hnd ⊢
    rw [step_dropSectors]
    split
    · exact hdrop n hnd h
    · exact h

theorem freshInv_step {roots A : List Hash} {s : Sectors} (op : Op)
    (hnd : (roots ++ A ++ appendedRoots env [op]).Nodup) (h : FreshInv roots A s) :
    FreshInv roots (A ++ appendedRoots env [op]) (step env s op) :=
  step_fresh env (freshInv_appended env) freshInv_dropped op hnd h

theorem freshInv_run {roots A : List Hash} {s : Sectors} (ops : List Op)
    (hnd : (roots ++ A ++ appendedRoots env ops).Nodup) (h : FreshInv roots A s) :
    FreshInv roots (A ++ appendedRoots env ops) (run env s ops) := by
  induction ops generalizing A s with
  | nil => simpa [appendedRoots] using h
  | cons op ops ih =>
    rw [appendedRoots_cons, ← List.append_assoc] at hnd ⊢
    exact ih (by simpa only [List.append_assoc] using hnd)
      (freshInv_step env op (hnd.sublist (List.sublist_append_left _ _)) h)

/-- Under the fresh-append invariant, the base roots not marked removed and the gained roots
    are exactly the listed roots. -/
theorem FreshPermInv.exact {roots A : List Hash} {s : Sectors} (h : FreshPermInv roots A s)
    (r : Hash) :
    ((r ∈ roots ∧ s.sectorsRemoved r = false) ∨ (s.sectorsGained r).isSome) ↔
      r ∈ s.merkleRoots := by
  by_cases hb : r ∈ roots
  · obtain ⟨hg, hrm⟩ := h.base r hb
    rw [hg, ← not_iff_not, ← hrm]
    simp [hb]
  by_cases ha : r ∈ A
  · simpa [hb] using (h.appended r ha).2
  · have hm : r ∉ s.merkleRoots := fun hm =>
      (List.mem_append.mp (h.subperm.subset hm)).elim hb ha
    simp [hb, (h.other r hb ha).1, hm]

theorem FreshInv.exact {roots A : List Hash} {s : Sectors} (h : FreshInv roots A s) (r : Hash) :
    ((r ∈ roots ∧ s.sectorsRemoved r = false) ∨ (s.sectorsGained r).isSome) ↔
      r ∈ s.merkleRoots :=
  h.toFreshPermInv.exact r

/-- When the base roots have no duplicate, no root is appended twice and no appended root is a
    base root, the cache is exact: the base roots not marked removed and the gained roots are
    the listed roots, so a commit onto a store holding the base sectors leaves a sector for
    every listed root and for no other. -/
theorem run_commit_exact_of_fresh (roots : List Hash) (ops : List Op)
    (hnd : (roots ++ appendedRoots env ops).Nodup) (store : Hash → Option Bytes)
    (hstore : ∀ r, (store r).isSome ↔ r ∈ roots) :
    let s := run env (newSectors roots) ops
    (∀ r, ((r ∈ roots ∧ s.sectorsRemoved r = false) ∨ (s.sectorsGained r).isSome) ↔
      r ∈ s.merkleRoots) ∧
    ∀ r, (commit store s r).isSome ↔ r ∈ s.merkleRoots := by
  have h := freshInv_run env ops (by simpa using hnd) (freshInv_newSectors roots)
  refine ⟨h.exact, fun r => ?_⟩
  rw [← h.exact, commit_isSome, ← hstore]
  cases (run env (newSectors roots) ops).sectorsRemoved r <;> simp [or_comm]

/-- Two fresh one-byte sectors appended to the base root 0, then one dropped: the store holds
    sectors for exactly the roots 0 and 1. -/
theorem byteSectors_fresh_commit_exact :
    ([0] ++ appendedRoots byteSectorEnv
      [.appendSector [1], .appendSector [2], .dropSectors 1]).Nodup ∧
    (∀ r, ((fun r => if r = 0 then some [0] else none : Hash → Option Bytes) r).isSome ↔
      r ∈ [(0 : Hash)]) ∧
    let s := run byteSectorEnv (newSectors [0])
      [.appendSector [1], .appendSector [2], .dropSectors 1]
    (∀ r, ((r ∈ [(0 : Hash)] ∧ s.sectorsRemoved r = false) ∨ (s.sectorsGained r).isSome) ↔
      r ∈ s.merkleRoots) ∧
    ∀ r, (commit (fun r => if r = 0 then some [0] else none) s r).isSome ↔ r ∈ s.merkleRoots :=
  ⟨by decide, fun r => by by_cases h : r = 0 <;> simp [h],
    run_commit_exact_of_fresh byteSectorEnv _ _ (by decide) _
      fun r => by by_cases h : r = 0 <;> simp [h]⟩

end FormalSia.Mdm
