/-
  FormalSia.Renter.SkyfileProofs — what the skyfile entry points upload and download.

  A run's effects are judged one by one: `EmitsOnly P m` says that every effect a run of
  `m` adds to the log satisfies `P`, whatever the log before and however the run ends;
  `Triple P m Q` adds that a value the run returns satisfies `Q`.  Both compose along `>>=`
  (`Triple.bind`), and a fallible call outside the sources emits nothing and returns what the
  call returned (`triple_liftWith`).  Two properties of effects matter: a base sector is
  uploaded under a skylink whose root is the sector's Merkle root (`Addressed`), and nothing
  whose root is on the blocklist is uploaded as a base sector or downloaded (`Unblocked`).
  The entry points that build or fetch a base sector have one lemma each that lists every
  effect they may have (`managedCreateSkylinkFromFileNode_effects`, `pinSkylink_effects`,
  `restoreSkyfile_effects`); both properties, and what a dry run does, are read off it.

  Main results:
    * `uploads_addressed` — `UploadSkyfile` and `CreateSkylinkFromSiafile` upload every base
      sector under a skylink of its own root; `pinSkylink_addressed` — so does `PinSkylink`
      when its one download returns data of the requested root and re-encrypting the
      decrypted sector under the layout parsed from it gives the sector back;
      `restoreSkyfile_addressed` — so does `RestoreSkyfile` of a consistent backup, one whose
      skylink names the Merkle root of its base sector, under the same re-encryption fact;
      `pinSkylink_keeps_skylink` — pinning uploads under the pinned skylink only.
    * `restoreSkyfile_mismatched_backup` — `RestoreSkyfile` uploads a backup's base sector
      under the backup's skylink without comparing their roots, and succeeds.
    * `blocklist_respected` — `CreateSkylinkFromSiafile`, `PinSkylink`, `RestoreSkyfile`,
      `DownloadByRoot`, `DownloadSkylink` and `DownloadSkylinkBaseSector` never upload a
      blocked base sector nor download a blocked root.  Beside it, `blocked_refused`
      collects the early returns: those given the skylink refuse a blocked one with
      `ErrSkylinkBlocked` before any effect.
    * `uploadSkyfile_uploads_blocked_small_file` — `UploadSkyfile` consults the blocklist
      only after the small-file path has uploaded the base sector.
    * `dryRun_uploadSkyfile` — a dry run of `UploadSkyfile`, by either path, uploads and
      downloads nothing; it may only delete siafiles.
-/
import FormalSia.Renter.Skyfile

namespace FormalSia.Renter

/-! ## §1. Effects of a run -/

/-- The log a run leaves, on either exit. -/
def logOf {α : Type} : EStateM.Result Error (List Effect) α → List Effect
  | .ok _ s => s
  | .error _ s => s

/-- Every effect a run of `m` adds to the log satisfies `P`. -/
def EmitsOnly (P : Effect → Prop) {α : Type} (m : SkyM α) : Prop :=
  ∀ s, ∀ e ∈ logOf (m s), e ∈ s ∨ P e

/-- A run of `m` adds only effects satisfying `P`, and a value it returns satisfies `Q`. -/
def Triple (P : Effect → Prop) {α : Type} (m : SkyM α) (Q : α → Prop) : Prop :=
  EmitsOnly P m ∧ ∀ s a s', m s = .ok a s' → Q a

section Combinators

variable {P : Effect → Prop} {α β : Type}

theorem EmitsOnly.mono {Q : Effect → Prop} {m : SkyM α} (hm : EmitsOnly P m)
    (h : ∀ e, P e → Q e) : EmitsOnly Q m := fun s e he => (hm s e he).imp_right (h e)

theorem emitsOnly_pure (a : α) : EmitsOnly P (pure a : SkyM α) := fun _ _ h => .inl h

theorem emitsOnly_throw (err : Error) : EmitsOnly P (throw err : SkyM α) := fun _ _ h => .inl h

theorem emitsOnly_emit {e : Effect} (h : P e) : EmitsOnly P (emit e) := by
  intro s x hx
  simp only [emit, modify, modifyGet, MonadStateOf.modifyGet, EStateM.modifyGet, logOf,
    List.mem_append, List.mem_singleton] at hx
  rcases hx with hx | rfl
  exacts [.inl hx, .inr h]

/-- The step of every proof below: a run of `m >>= f` is a run of `m` and, if it returned
    `a`, a run of `f a`. -/
theorem Triple.bind {m : SkyM α} {Q : α → Prop} {f : α → SkyM β} (hm : Triple P m Q)
    (hf : ∀ a, Q a → EmitsOnly P (f a)) : EmitsOnly P (m >>= f) := by
  intro s e he
  change e ∈ logOf (EStateM.bind m f s) at he
  unfold EStateM.bind at he
  rcases hms : m s with ⟨a, s'⟩ | ⟨err, s'⟩ <;> rw [hms] at he
  · rcases hf a (hm.2 s a s' hms) s' e he with h | h
    · exact hm.1 s e (by rw [hms]; exact h)
    · exact .inr h
  · exact hm.1 s e (by rw [hms]; exact he)

/-- `Triple.bind`, keeping what the second step returns. -/
theorem Triple.andThen {m : SkyM α} {Q : α → Prop} {f : α → SkyM β} {R : β → Prop}
    (hm : Triple P m Q) (hf : ∀ a, Q a → Triple P (f a) R) : Triple P (m >>= f) R := by
  refine ⟨hm.bind fun a ha => (hf a ha).1, fun s b s'' h => ?_⟩
  change EStateM.bind m f s = _ at h
  unfold EStateM.bind at h
  rcases hms : m s with ⟨a, s'⟩ | ⟨err, s'⟩ <;> rw [hms] at h
  · exact (hf a (hm.2 s a s' hms)).2 s' b s'' h
  · cases h

theorem EmitsOnly.triple {m : SkyM α} (hm : EmitsOnly P m) : Triple P m fun _ => True :=
  ⟨hm, fun _ _ _ _ => trivial⟩

theorem emitsOnly_bind {m : SkyM α} {f : α → SkyM β} (hm : EmitsOnly P m)
    (hf : ∀ a, EmitsOnly P (f a)) : EmitsOnly P (m >>= f) :=
  hm.triple.bind fun a _ => hf a

theorem triple_pure (a : α) : Triple P (pure a : SkyM α) (· = a) :=
  ⟨emitsOnly_pure a, fun _ _ _ h => by cases h; rfl⟩

theorem triple_liftWith (x : Except Error α) (context : String) :
    Triple P (liftWith x context) (x = .ok ·) := by
  cases x with
  | error err => exact ⟨emitsOnly_throw _, fun _ _ _ h => by cases h⟩
  | ok a => exact ⟨emitsOnly_pure a, fun _ _ _ h => by cases h; rfl⟩

theorem triple_checkWith (x : Option Error) (context : String) :
    Triple P (checkWith x context) fun _ => x = none := by
  cases x with
  | none => exact ⟨emitsOnly_pure _, fun _ _ _ _ => rfl⟩
  | some err => exact ⟨emitsOnly_throw _, fun _ _ _ h => by cases h⟩

theorem triple_failIf (c : Bool) (err : Error) : Triple P (failIf c err) fun _ => c = false := by
  cases c with
  | false => exact ⟨emitsOnly_pure _, fun _ _ _ _ => rfl⟩
  | true => exact ⟨emitsOnly_throw _, fun _ _ _ h => by cases h⟩

theorem triple_throwSome (x : Option Error) : Triple P (throwSome x) fun _ => x = none := by
  cases x with
  | none => exact ⟨emitsOnly_pure _, fun _ _ _ _ => rfl⟩
  | some err => exact ⟨emitsOnly_throw _, fun _ _ _ h => by cases h⟩

theorem Triple.mapError {m : SkyM α} {Q : α → Prop} (hm : Triple P m Q) (f : Error → Error) :
    Triple P (mapError f m) Q := by
  refine ⟨fun s e he => ?_, fun s a s' h => ?_⟩
  · unfold FormalSia.Renter.mapError at he
    split at he <;> rename_i h <;> exact hm.1 s e (by rw [h]; exact he)
  · unfold FormalSia.Renter.mapError at h
    split at h <;> rename_i h'
    · cases h
      exact hm.2 s a _ h'
    · cases h

theorem Triple.withContext {m : SkyM α} {Q : α → Prop} (hm : Triple P m Q) (context : String) :
    Triple P (withContext m context) Q :=
  hm.mapError _

theorem emitsOnly_mapError {m : SkyM α} (hm : EmitsOnly P m) (f : Error → Error) :
    EmitsOnly P (mapError f m) :=
  (hm.triple.mapError f).1

theorem emitsOnly_withContext {m : SkyM α} (hm : EmitsOnly P m) (context : String) :
    EmitsOnly P (withContext m context) :=
  (hm.triple.withContext context).1

theorem emitsOnly_withClose {m : SkyM α} (hm : EmitsOnly P m) (closeErr : Option Error) :
    EmitsOnly P (withClose m closeErr) := by
  intro s e he
  unfold withClose at he
  split at he
  · rename_i h
    split at he <;> exact hm s e (by rw [h]; exact he)
  · rename_i h
    exact hm s e (by rw [h]; exact he)

end Combinators

variable (env : Env) (blocklist : List Hash)

/-- A base sector uploaded under a skylink of its own Merkle root. -/
def Addressed (e : Effect) : Prop :=
  ∀ baseSector skylink, e = .uploadBaseSector baseSector skylink →
    skylink.merkleRoot = env.merkleRoot baseSector

/-- Nothing with a blocked root uploaded as a base sector or downloaded. -/
def Unblocked : Effect → Prop
  | .uploadBaseSector _ skylink => isBlocked env blocklist skylink = false
  | .download root => isHashBlocked blocklist (env.hashObject root) = false
  | .uploadFile _ | .deleteFile _ => True

theorem addressed_of_ne {e : Effect} (h : ∀ bs sl, e ≠ .uploadBaseSector bs sl) :
    Addressed env e := fun bs sl he => absurd he (h bs sl)

/-! ## §2. The helpers -/

theorem newSkylinkV1_merkleRoot {root : Hash} {offset fetchSize : Nat} {skylink : Skylink}
    (h : newSkylinkV1 env root offset fetchSize = .ok skylink) : skylink.merkleRoot = root := by
  unfold newSkylinkV1 at h
  split at h <;> cases h
  rfl

theorem triple_encryptIfEnabled {P : Effect → Prop} (sup : SkyfileUploadParameters)
    (baseSector : Bytes) (sl : SkyfileLayout) :
    Triple P (encryptIfEnabled env sup baseSector sl) fun _ => True := by
  unfold encryptIfEnabled
  split
  · exact ⟨(triple_liftWith _ _).1, fun _ _ _ _ => trivial⟩
  · exact ⟨emitsOnly_pure _, fun _ _ _ _ => trivial⟩

/-- A decrypted sector is the fetched one, or its decryption under the returned skykey. -/
theorem triple_decryptIfEncrypted {P : Effect → Prop} (baseSector : Bytes) :
    Triple P (decryptIfEncrypted env baseSector) fun r =>
      r = (none, baseSector) ∨
        ∃ key, r.1 = some key ∧ env.decryptBaseSector baseSector = .ok (key, r.2) := by
  unfold decryptIfEncrypted
  split
  · refine ⟨(triple_liftWith _ _).bind fun _ _ => emitsOnly_pure _, fun s r s' h => ?_⟩
    rcases hd : env.decryptBaseSector baseSector with err | ⟨key, plain⟩ <;>
      simp only [hd, liftWith, bind, EStateM.bind, pure, EStateM.pure, throw, throwThe,
        MonadExceptOf.throw, EStateM.throw] at h <;> cases h
    exact .inr ⟨key, rfl, rfl⟩
  · exact ⟨emitsOnly_pure _, fun _ _ _ h => .inl (by cases h; rfl)⟩

theorem triple_refuseIf {P : Effect → Prop} (blocked : Bool) (siaPath : String)
    (hdel : P (.deleteFile siaPath)) :
    Triple P (refuseIf env blocked siaPath) fun _ => blocked = false := by
  cases blocked with
  | false => exact ⟨emitsOnly_pure _, fun _ _ _ _ => rfl⟩
  | true =>
    refine ⟨emitsOnly_bind (emitsOnly_emit hdel) fun _ => emitsOnly_throw _, fun _ _ _ h => ?_⟩
    simp [refuseIf, refuseBlocked, emit, bind, EStateM.bind, modify, modifyGet,
      MonadStateOf.modifyGet, EStateM.modifyGet, throw, throwThe, MonadExceptOf.throw,
      EStateM.throw] at h

/-- `managedUploadBaseSector` uploads exactly its base sector under its skylink. -/
theorem emitsOnly_managedUploadBaseSector (sup : SkyfileUploadParameters) (baseSector : Bytes)
    (skylink : Skylink) :
    EmitsOnly (· = .uploadBaseSector baseSector skylink)
      (managedUploadBaseSector env sup baseSector skylink) := by
  unfold managedUploadBaseSector
  refine (triple_liftWith _ _).bind fun _ _ => ?_
  refine emitsOnly_bind (emitsOnly_emit rfl) fun _ => (triple_liftWith _ _).bind fun _ _ => ?_
  dsimp only
  split
  · exact emitsOnly_pure _
  · exact emitsOnly_throw _

/-- Uploading a base sector under a skylink built from its root is addressed. -/
theorem addressed_managedUploadBaseSector (sup : SkyfileUploadParameters) {baseSector : Bytes}
    {fetchSize : Nat} {skylink : Skylink}
    (h : newSkylinkV1 env (env.merkleRoot baseSector) 0 fetchSize = .ok skylink) :
    EmitsOnly (Addressed env) (managedUploadBaseSector env sup baseSector skylink) :=
  (emitsOnly_managedUploadBaseSector env sup baseSector skylink).mono fun e he _ _ h' => by
    subst he
    cases h'
    exact newSkylinkV1_merkleRoot env h

theorem emitsOnly_cleanupAfter {P : Effect → Prop} (sup : SkyfileUploadParameters)
    {m : SkyM Skylink} (hm : EmitsOnly P m) (hdel : ∀ siaPath, P (.deleteFile siaPath)) :
    EmitsOnly P (cleanupAfter env sup m) := by
  intro s e he
  unfold cleanupAfter at he
  have cleanup : ∀ s', (∀ e ∈ s', e ∈ s ∨ P e) → e ∈ s' ++
      [.deleteFile sup.siaPath, .deleteFile (sup.siaPath ++ env.extendedSuffix)] → e ∈ s ∨ P e := by
    intro s' hs' h
    simp only [List.mem_append, List.mem_cons, List.mem_singleton, List.not_mem_nil,
      or_false] at h
    rcases h with h | rfl | rfl
    exacts [hs' e h, .inr (hdel _), .inr (hdel _)]
  split at he <;> rename_i h
  · have hs' := fun e (he : e ∈ _) => hm s e (by rw [h]; exact he)
    split at he
    · exact cleanup _ hs' he
    · exact hs' e he
  · exact cleanup _ (fun e he => hm s e (by rw [h]; exact he)) he

/-- `DownloadByRoot` downloads its root at most, and returns what the workers fetched. -/
theorem triple_downloadByRoot {P : Effect → Prop} (root : Hash) (offset length timeout : Nat)
    (hP : isHashBlocked blocklist (env.hashObject root) = false → P (.download root)) :
    Triple P (downloadByRoot env blocklist root offset length timeout)
      (env.managedDownloadByRoot root offset length = .ok ·) := by
  unfold downloadByRoot
  refine (triple_throwSome _).andThen fun _ _ => (triple_failIf _ _).andThen fun _ hb =>
    (emitsOnly_emit (hP hb)).triple.andThen fun _ _ => ?_
  split <;> rename_i h
  · exact ⟨emitsOnly_pure _, fun _ _ _ e => by cases e; exact h⟩
  · exact ⟨emitsOnly_throw _, fun _ _ _ e => by cases e⟩

/-- `sector` is `baseSector`, or its decryption re-encrypted under the skykey it was
    decrypted with and the layout parsed from the decrypted sector. -/
def Reencrypts (baseSector sector : Bytes) : Prop :=
  sector = baseSector ∨ ∃ key plain layout metadata,
    env.decryptBaseSector baseSector = .ok (key, plain) ∧
    env.parseSkyfileMetadata plain = .ok (layout, metadata) ∧
    env.encryptBaseSectorWithSkykey plain layout (some key) = .ok sector

/-- Re-encryption gives back the sector when re-encrypting its decryption, under the layout
    parsed from it, undoes the decryption. -/
theorem Reencrypts.eq {env : Env} {baseSector sector : Bytes}
    (hreencrypt : ∀ key plain layout metadata,
      env.decryptBaseSector baseSector = .ok (key, plain) →
      env.parseSkyfileMetadata plain = .ok (layout, metadata) →
      env.encryptBaseSectorWithSkykey plain layout (some key) = .ok baseSector)
    (h : Reencrypts env baseSector sector) : sector = baseSector := by
  rcases h with h | ⟨key, plain, layout, metadata, hd, hp, he⟩
  · exact h
  · rw [hreencrypt _ _ _ _ hd hp] at he; cases he; rfl

/-! ## §3. What the entry points may do -/

/-- What `managedCreateSkylinkFromFileNode` with parameters `sup` may do: delete the siafile
    of a blocked file, and, unless it is a dry run, upload a base sector under a skylink built
    from the sector's root once that skylink is found unblocked. -/
def CreateEffect (sup : SkyfileUploadParameters) : Effect → Prop
  | .uploadBaseSector sector skylink => sup.dryRun = false ∧
    isBlocked env blocklist skylink = false ∧
    ∃ fetchSize, newSkylinkV1 env (env.merkleRoot sector) 0 fetchSize = .ok skylink
  | .deleteFile _ => True
  | .download _ | .uploadFile _ => False

theorem managedCreateSkylinkFromFileNode_effects (sup : SkyfileUploadParameters)
    (skyfileMetadata : SkyfileMetadata) (fileNode : FileNode) (fanoutReader : Bytes) :
    EmitsOnly (CreateEffect env blocklist sup)
      (managedCreateSkylinkFromFileNode env blocklist sup skyfileMetadata fileNode fanoutReader) := by
  unfold managedCreateSkylinkFromFileNode
  refine (triple_throwSome _).bind fun _ _ => (triple_refuseIf env _ _ trivial).bind fun _ _ => ?_
  refine (triple_failIf _ _).bind fun _ _ => (triple_failIf _ _).bind fun _ _ => ?_
  refine (triple_liftWith _ _).bind fun _ _ => (triple_liftWith _ _).bind fun _ _ => ?_
  refine (triple_failIf _ _).bind fun _ _ => ?_
  refine (triple_encryptIfEnabled env _ _ _).bind fun _ _ => ?_
  refine (triple_liftWith _ _).bind fun _ hsl => ?_
  dsimp only
  split
  · exact emitsOnly_pure _
  rename_i hdry
  refine emitsOnly_bind (emitsOnly_pure _) fun _ => (triple_refuseIf env _ _ trivial).bind
    fun _ hb => (triple_checkWith _ _).bind fun _ _ => ?_
  exact emitsOnly_bind (emitsOnly_withContext ((emitsOnly_managedUploadBaseSector env _ _ _).mono
    fun _ he => he ▸ ⟨Bool.eq_false_iff.mpr hdry, hb, _, hsl⟩) _) fun _ => emitsOnly_pure _

/-- What `PinSkylink` of `skylink` may do, once `skylink` is found unblocked: download its
    root, upload the downloaded base sector, possibly re-encrypted, under it, and upload the
    fanout's siafile. -/
def PinEffect (skylink : Skylink) : Effect → Prop
  | .uploadBaseSector sector sl => sl = skylink ∧ isBlocked env blocklist skylink = false ∧
    ∃ fetched, env.managedDownloadByRoot skylink.merkleRoot 0 env.sectorSize = .ok fetched ∧
      Reencrypts env fetched sector
  | .download root => root = skylink.merkleRoot ∧ isBlocked env blocklist skylink = false
  | .uploadFile _ => True
  | .deleteFile _ => False

theorem pinSkylink_effects (skylink : Skylink) (lup : SkyfileUploadParameters) (timeout : Nat) :
    EmitsOnly (PinEffect env blocklist skylink) (pinSkylink env blocklist skylink lup timeout) := by
  unfold pinSkylink
  refine (triple_failIf _ _).bind fun _ hb => ?_
  refine ((triple_downloadByRoot env blocklist _ _ _ _ fun _ => ⟨rfl, hb⟩).withContext _).bind
    fun fetched hfetched => (triple_failIf _ _).bind fun _ _ => ?_
  refine (triple_decryptIfEncrypted env fetched).bind fun ⟨key?, plain⟩ hdec => ?_
  refine (triple_liftWith _ _).bind fun ⟨layout, _⟩ hp => ?_
  dsimp only
  refine (?_ : Triple _ _ fun r : Bytes × FileUploadParams × SkyfileUploadParameters =>
    Reencrypts env fetched r.1).bind fun ⟨sector, _, _⟩ hsector => ?_
  · rcases hdec with h | ⟨key, rfl, hd⟩
    · cases h
      exact ⟨emitsOnly_pure _, fun _ _ _ e => by cases e; exact .inl rfl⟩
    · refine (triple_liftWith _ _).andThen fun sector hs => ?_
      exact (triple_liftWith _ _).andThen fun _ _ => (triple_liftWith _ _).andThen fun _ _ =>
        ⟨emitsOnly_pure _, fun _ _ _ e => by cases e; exact .inr ⟨key, _, _, _, hd, hp, hs⟩⟩
  dsimp only at hsector ⊢
  refine emitsOnly_bind (emitsOnly_withContext ((emitsOnly_managedUploadBaseSector env _ _ _).mono
    fun _ he => he ▸ ⟨rfl, hb, fetched, hfetched, hsector⟩) _) fun _ => ?_
  split
  · exact emitsOnly_pure _
  refine (triple_checkWith _ _).bind fun _ _ => (triple_liftWith _ _).bind fun _ _ => ?_
  refine emitsOnly_bind (emitsOnly_emit ⟨rfl, hb⟩) fun _ => (triple_liftWith _ _).bind fun _ _ => ?_
  exact emitsOnly_bind (emitsOnly_emit trivial) fun _ =>
    (triple_liftWith _ _).bind fun _ _ => (triple_checkWith _ _).1

/-- What `RestoreSkyfile` of `reader` may do: upload the backup's base sector, possibly
    re-encrypted, under the backup's skylink once it is found unblocked; upload the fanout's
    siafile; delete a siafile. -/
def RestoreEffect (reader : Bytes) : Effect → Prop
  | .uploadBaseSector sector skylink => ∃ skylinkStr baseSector rest,
    env.restoreSkylink reader = .ok (skylinkStr, baseSector, rest) ∧
    env.loadString skylinkStr = .ok skylink ∧ isBlocked env blocklist skylink = false ∧
    Reencrypts env baseSector sector
  | .download _ => False
  | .uploadFile _ | .deleteFile _ => True

theorem restoreSkyfile_effects (reader : Bytes) :
    EmitsOnly (RestoreEffect env blocklist reader) (restoreSkyfile env blocklist reader) := by
  unfold restoreSkyfile
  refine (triple_liftWith _ _).bind fun ⟨skylinkStr, backupSector, rest⟩ hr => ?_
  refine (triple_liftWith _ _).bind fun skylink hl => (triple_failIf _ _).bind fun _ hb => ?_
  refine (triple_decryptIfEncrypted env backupSector).bind fun ⟨key?, plain⟩ hdec => ?_
  refine (triple_liftWith _ _).bind fun ⟨sl, sm⟩ hp => (triple_liftWith _ _).bind fun _ _ => ?_
  dsimp only
  refine (?_ : Triple _ _ fun r : Bytes × SkyfileUploadParameters =>
    Reencrypts env backupSector r.1).bind fun ⟨sector, _⟩ hsector => ?_
  · rcases hdec with h | ⟨key, rfl, hd⟩
    · cases h
      exact ⟨emitsOnly_pure _, fun _ _ _ e => by cases e; exact .inl rfl⟩
    · refine (triple_liftWith _ _).andThen fun sector hs => ?_
      exact ⟨emitsOnly_pure _, fun _ _ _ e => by cases e; exact .inr ⟨key, _, _, _, hd, hp, hs⟩⟩
  dsimp only at hsector ⊢
  refine emitsOnly_bind ?_ fun _ => ?_
  · split
    · exact (triple_checkWith _ _).bind fun _ _ => (triple_checkWith _ _).1
    · exact emitsOnly_pure _
  refine emitsOnly_bind (emitsOnly_withContext ((emitsOnly_managedUploadBaseSector env _ _ _).mono
    fun _ he => he ▸ ⟨_, _, _, hr, hl, hb, hsector⟩) _) fun _ => ?_
  split
  · exact emitsOnly_pure _
  refine (triple_liftWith _ _).bind fun _ _ => (triple_liftWith _ _).bind fun _ _ => ?_
  refine emitsOnly_bind ?_ fun _ => ?_
  · split
    · exact (triple_liftWith _ _).bind fun _ _ => emitsOnly_pure _
    · exact (triple_liftWith _ _).1
  refine emitsOnly_bind (emitsOnly_emit trivial) fun _ => (triple_liftWith _ _).bind fun _ _ => ?_
  refine (triple_refuseIf env _ _ trivial).bind fun _ _ => ?_
  split
  · exact emitsOnly_pure _
  · exact emitsOnly_bind (emitsOnly_emit trivial) fun _ => emitsOnly_throw _

/-! ## §4. Every base sector is uploaded under its own root -/

theorem addressed_managedUploadSkyfileSmallFile (sup : SkyfileUploadParameters)
    (metadataBytes fileBytes : Bytes) :
    EmitsOnly (Addressed env) (managedUploadSkyfileSmallFile env sup metadataBytes fileBytes) := by
  unfold managedUploadSkyfileSmallFile
  refine (triple_encryptIfEnabled env _ _ _).bind fun baseSector _ => ?_
  refine (triple_liftWith _ _).bind fun skylink hsl => ?_
  split
  · exact emitsOnly_pure _
  · exact emitsOnly_bind (emitsOnly_pure _) fun _ => emitsOnly_bind
      (emitsOnly_withContext (addressed_managedUploadBaseSector env sup hsl) _)
      fun _ => emitsOnly_pure _

theorem addressed_managedCreateSkylinkFromFileNode (sup : SkyfileUploadParameters)
    (skyfileMetadata : SkyfileMetadata) (fileNode : FileNode) (fanoutReader : Bytes) :
    EmitsOnly (Addressed env)
      (managedCreateSkylinkFromFileNode env blocklist sup skyfileMetadata fileNode fanoutReader) :=
  (managedCreateSkylinkFromFileNode_effects env blocklist sup skyfileMetadata fileNode
    fanoutReader).mono fun _ he _ _ h => by
    subst h
    obtain ⟨-, -, _, hsl⟩ := he
    exact newSkylinkV1_merkleRoot env hsl

theorem addressed_managedUploadSkyfileLargeFile (sup : SkyfileUploadParameters)
    (fileReader : SkyfileUploadReader) :
    EmitsOnly (Addressed env) (managedUploadSkyfileLargeFile env blocklist sup fileReader) := by
  unfold managedUploadSkyfileLargeFile
  refine (triple_liftWith _ _).bind fun _ _ => (triple_liftWith _ _).bind fun _ _ => ?_
  refine (triple_liftWith _ _).bind fun fup _ => emitsOnly_bind ?_ fun _ => ?_
  · split
    · exact (triple_liftWith _ _).1
    · exact emitsOnly_bind (emitsOnly_emit (addressed_of_ne env fun _ _ h => by cases h))
        fun _ => (triple_liftWith _ _).1
  · exact (triple_liftWith _ _).bind fun _ _ => emitsOnly_withContext
      (addressed_managedCreateSkylinkFromFileNode env blocklist _ _ _ _) _

theorem addressed_managedUploadSkyfile (sup : SkyfileUploadParameters)
    (reader : SkyfileUploadReader) :
    EmitsOnly (Addressed env) (managedUploadSkyfile env blocklist sup reader) := by
  unfold managedUploadSkyfile
  dsimp only
  split
  · refine (triple_liftWith _ _).bind fun _ _ => (triple_throwSome _).bind fun _ _ => ?_
    refine (triple_liftWith _ _).bind fun _ _ => ?_
    split
    · exact emitsOnly_bind (addressed_managedUploadSkyfileSmallFile env _ _ _)
        fun _ => emitsOnly_pure _
    · exact emitsOnly_bind (emitsOnly_pure _)
        fun _ => addressed_managedUploadSkyfileLargeFile env blocklist _ _
  · exact emitsOnly_bind (emitsOnly_pure _)
      fun _ => addressed_managedUploadSkyfileLargeFile env blocklist _ _

theorem addressed_uploadSkyfile (sup : SkyfileUploadParameters) (reader : SkyfileUploadReader) :
    EmitsOnly (Addressed env) (uploadSkyfile env blocklist sup reader) := by
  unfold uploadSkyfile
  refine (triple_liftWith _ _).bind fun sup _ => emitsOnly_cleanupAfter env sup ?_
    fun _ => addressed_of_ne env fun _ _ h => by cases h
  exact emitsOnly_bind (emitsOnly_withContext (addressed_managedUploadSkyfile env blocklist _ _) _)
    fun _ => (triple_failIf _ _).bind fun _ _ => emitsOnly_pure _

theorem addressed_createSkylinkFromSiafile (sup : SkyfileUploadParameters) (siaPath : String) :
    EmitsOnly (Addressed env) (createSkylinkFromSiafile env blocklist sup siaPath) := by
  unfold createSkylinkFromSiafile
  exact (triple_failIf _ _).bind fun _ _ => (triple_liftWith _ _).bind fun _ _ =>
    emitsOnly_withClose (addressed_managedCreateSkylinkFromFileNode env blocklist _ _ _ _) _

/-- `UploadSkyfile`, by either path, and `CreateSkylinkFromSiafile` upload every base sector
    under a skylink whose root is the sector's Merkle root. -/
theorem uploads_addressed (sup : SkyfileUploadParameters) (reader : SkyfileUploadReader)
    (siaPath : String) :
    EmitsOnly (Addressed env) (uploadSkyfile env blocklist sup reader) ∧
    EmitsOnly (Addressed env) (createSkylinkFromSiafile env blocklist sup siaPath) :=
  ⟨addressed_uploadSkyfile env blocklist sup reader,
    addressed_createSkylinkFromSiafile env blocklist sup siaPath⟩

/-- `PinSkylink` uploads the fetched base sector under the skylink it fetched it by, so under
    its own root, when the workers return a sector of the skylink's root for the one download
    `PinSkylink` makes (offset 0, one sector), and re-encrypting its decryption under the
    skykey and the layout parsed from it gives that sector back. -/
theorem pinSkylink_addressed (skylink : Skylink)
    (hdownload : ∀ fetched,
      env.managedDownloadByRoot skylink.merkleRoot 0 env.sectorSize = .ok fetched →
      env.merkleRoot fetched = skylink.merkleRoot)
    (hreencrypt : ∀ fetched key plain layout metadata,
      env.managedDownloadByRoot skylink.merkleRoot 0 env.sectorSize = .ok fetched →
      env.decryptBaseSector fetched = .ok (key, plain) →
      env.parseSkyfileMetadata plain = .ok (layout, metadata) →
      env.encryptBaseSectorWithSkykey plain layout (some key) = .ok fetched)
    (lup : SkyfileUploadParameters) (timeout : Nat) :
    EmitsOnly (Addressed env) (pinSkylink env blocklist skylink lup timeout) :=
  (pinSkylink_effects env blocklist skylink lup timeout).mono fun _ he _ _ h => by
    subst h
    obtain ⟨rfl, -, fetched, hfetched, hs⟩ := he
    rw [hs.eq (hreencrypt fetched · · · · hfetched)]
    exact (hdownload _ hfetched).symm

/-- `RestoreSkyfile` uploads the backup's base sector under the backup's skylink, so under
    its own root exactly when the backup is consistent: its skylink names the Merkle root of
    its base sector, and re-encrypting the decrypted base sector under its skykey and the
    layout parsed from it gives the sector back. -/
theorem restoreSkyfile_addressed {reader : Bytes}
    (hreencrypt : ∀ skylinkStr baseSector rest key plain layout metadata,
      env.restoreSkylink reader = .ok (skylinkStr, baseSector, rest) →
      env.decryptBaseSector baseSector = .ok (key, plain) →
      env.parseSkyfileMetadata plain = .ok (layout, metadata) →
      env.encryptBaseSectorWithSkykey plain layout (some key) = .ok baseSector)
    (hbackup : ∀ skylinkStr baseSector rest skylink,
      env.restoreSkylink reader = .ok (skylinkStr, baseSector, rest) →
      env.loadString skylinkStr = .ok skylink → skylink.merkleRoot = env.merkleRoot baseSector) :
    EmitsOnly (Addressed env) (restoreSkyfile env blocklist reader) :=
  (restoreSkyfile_effects env blocklist reader).mono fun _ he _ _ h => by
    subst h
    obtain ⟨_, _, _, hr, hl, -, hs⟩ := he
    rw [hs.eq (hreencrypt _ _ _ · · · · hr)]
    exact hbackup _ _ _ _ hr hl

/-! ## §5. The blocklist -/

@[simp] theorem unblocked_uploadFile (siaPath : String) :
    Unblocked env blocklist (.uploadFile siaPath) := trivial

@[simp] theorem unblocked_deleteFile (siaPath : String) :
    Unblocked env blocklist (.deleteFile siaPath) := trivial

theorem unblocked_managedCreateSkylinkFromFileNode (sup : SkyfileUploadParameters)
    (skyfileMetadata : SkyfileMetadata) (fileNode : FileNode) (fanoutReader : Bytes) :
    EmitsOnly (Unblocked env blocklist)
      (managedCreateSkylinkFromFileNode env blocklist sup skyfileMetadata fileNode fanoutReader) :=
  (managedCreateSkylinkFromFileNode_effects env blocklist sup skyfileMetadata fileNode
    fanoutReader).mono fun e he => by
    cases e with
    | uploadBaseSector => exact he.2.1
    | deleteFile => trivial
    | download | uploadFile => cases he

theorem unblocked_createSkylinkFromSiafile (sup : SkyfileUploadParameters) (siaPath : String) :
    EmitsOnly (Unblocked env blocklist) (createSkylinkFromSiafile env blocklist sup siaPath) := by
  unfold createSkylinkFromSiafile
  exact (triple_failIf _ _).bind fun _ _ => (triple_liftWith _ _).bind fun _ _ =>
    emitsOnly_withClose (unblocked_managedCreateSkylinkFromFileNode env blocklist _ _ _ _) _

theorem unblocked_downloadByRoot (root : Hash) (offset length timeout : Nat) :
    EmitsOnly (Unblocked env blocklist) (downloadByRoot env blocklist root offset length timeout) :=
  (triple_downloadByRoot env blocklist root offset length timeout id).1

theorem unblocked_pinSkylink (skylink : Skylink) (lup : SkyfileUploadParameters) (timeout : Nat) :
    EmitsOnly (Unblocked env blocklist) (pinSkylink env blocklist skylink lup timeout) :=
  (pinSkylink_effects env blocklist skylink lup timeout).mono fun e he => by
    cases e with
    | uploadBaseSector => obtain ⟨rfl, hb, -⟩ := he; exact hb
    | download => obtain ⟨rfl, hb⟩ := he; exact hb
    | uploadFile => trivial
    | deleteFile => cases he

theorem unblocked_restoreSkyfile (reader : Bytes) :
    EmitsOnly (Unblocked env blocklist) (restoreSkyfile env blocklist reader) :=
  (restoreSkyfile_effects env blocklist reader).mono fun e he => by
    cases e with
    | uploadBaseSector => obtain ⟨_, _, _, -, -, hb, -⟩ := he; exact hb
    | download => cases he
    | uploadFile | deleteFile => trivial

theorem unblocked_downloadSkylink (link : Skylink) (timeout : Nat) :
    EmitsOnly (Unblocked env blocklist) (downloadSkylink env blocklist link timeout) := by
  unfold downloadSkylink managedDownloadSkylink
  refine (triple_throwSome _).bind fun _ _ => (triple_failIf _ _).bind fun _ hb => ?_
  refine emitsOnly_mapError ?_ _
  split
  · exact emitsOnly_pure _
  · exact emitsOnly_bind (emitsOnly_emit hb) fun _ => (triple_liftWith _ _).1

theorem unblocked_downloadSkylinkBaseSector (link : Skylink) :
    EmitsOnly (Unblocked env blocklist) (downloadSkylinkBaseSector env blocklist link) := by
  unfold downloadSkylinkBaseSector
  refine (triple_throwSome _).bind fun _ _ => (triple_failIf _ _).bind fun _ hb => ?_
  refine (triple_liftWith _ _).bind fun _ _ => ?_
  refine emitsOnly_bind (emitsOnly_emit hb) fun _ => ?_
  split
  · exact emitsOnly_pure _
  · exact emitsOnly_throw _

/-- Whatever the blocklist: `CreateSkylinkFromSiafile`, `PinSkylink`, `RestoreSkyfile`,
    `DownloadByRoot`, `DownloadSkylink` and `DownloadSkylinkBaseSector` upload no base sector
    under a blocked skylink and download no blocked root. -/
theorem blocklist_respected (sup : SkyfileUploadParameters) (siaPath : String)
    (skylink : Skylink) (timeout : Nat) (reader : Bytes) (root : Hash) (offset length : Nat) :
    EmitsOnly (Unblocked env blocklist) (createSkylinkFromSiafile env blocklist sup siaPath) ∧
    EmitsOnly (Unblocked env blocklist) (pinSkylink env blocklist skylink sup timeout) ∧
    EmitsOnly (Unblocked env blocklist) (restoreSkyfile env blocklist reader) ∧
    EmitsOnly (Unblocked env blocklist) (downloadByRoot env blocklist root offset length timeout) ∧
    EmitsOnly (Unblocked env blocklist) (downloadSkylink env blocklist skylink timeout) ∧
    EmitsOnly (Unblocked env blocklist) (downloadSkylinkBaseSector env blocklist skylink) :=
  ⟨unblocked_createSkylinkFromSiafile env blocklist sup siaPath,
    unblocked_pinSkylink env blocklist skylink sup timeout,
    unblocked_restoreSkyfile env blocklist reader,
    unblocked_downloadByRoot env blocklist root offset length timeout,
    unblocked_downloadSkylink env blocklist skylink timeout,
    unblocked_downloadSkylinkBaseSector env blocklist skylink⟩

/-- The entry points given a skylink, or reading one from a backup, refuse a blocked one with
    `ErrSkylinkBlocked` before any effect (the downloads once the renter runs). -/
theorem blocked_refused (s : List Effect) {skylink : Skylink}
    (hb : isBlocked env blocklist skylink = true) (htg : env.tgAdd = none)
    (lup : SkyfileUploadParameters) (timeout offset length : Nat) {reader : Bytes}
    {skylinkStr : String} {baseSector rest : Bytes}
    (hr : env.restoreSkylink reader = .ok (skylinkStr, baseSector, rest))
    (hl : env.loadString skylinkStr = .ok skylink) :
    pinSkylink env blocklist skylink lup timeout s = .error [errSkylinkBlocked] s ∧
    downloadSkylink env blocklist skylink timeout s = .error [errSkylinkBlocked] s ∧
    downloadSkylinkBaseSector env blocklist skylink s = .error [errSkylinkBlocked] s ∧
    downloadByRoot env blocklist skylink.merkleRoot offset length timeout s =
      .error [errSkylinkBlocked] s ∧
    restoreSkyfile env blocklist reader s = .error [errSkylinkBlocked] s := by
  refine ⟨?_, ?_, ?_, ?_, ?_⟩
  all_goals
    unfold isBlocked at hb
    simp only [pinSkylink, downloadSkylink, downloadSkylinkBaseSector, downloadByRoot,
      restoreSkyfile, isBlocked, htg, hb, hr, hl, liftWith, pure_bind]
  all_goals rfl

/-! ## §6. Dry runs -/

/-- A siafile deleted: the only effect a dry run may have. -/
def IsDeletion : Effect → Prop
  | .deleteFile _ => True
  | _ => False

section DryRun

variable {sup : SkyfileUploadParameters} (hdry : sup.dryRun = true)
include hdry

theorem dryRun_managedUploadSkyfileSmallFile (metadataBytes fileBytes : Bytes) :
    EmitsOnly IsDeletion (managedUploadSkyfileSmallFile env sup metadataBytes fileBytes) := by
  unfold managedUploadSkyfileSmallFile
  refine (triple_encryptIfEnabled env _ _ _).bind fun _ _ =>
    (triple_liftWith _ _).bind fun _ _ => ?_
  split
  · exact emitsOnly_pure _
  · simp_all

theorem dryRun_managedCreateSkylinkFromFileNode (skyfileMetadata : SkyfileMetadata)
    (fileNode : FileNode) (fanoutReader : Bytes) :
    EmitsOnly IsDeletion
      (managedCreateSkylinkFromFileNode env blocklist sup skyfileMetadata fileNode fanoutReader) :=
  (managedCreateSkylinkFromFileNode_effects env blocklist sup skyfileMetadata fileNode
    fanoutReader).mono fun e he => by
    cases e with
    | uploadBaseSector => exact Bool.noConfusion (hdry.symm.trans he.1)
    | deleteFile => trivial
    | download | uploadFile => cases he

theorem dryRun_managedUploadSkyfileLargeFile (fileReader : SkyfileUploadReader) :
    EmitsOnly IsDeletion (managedUploadSkyfileLargeFile env blocklist sup fileReader) := by
  unfold managedUploadSkyfileLargeFile
  refine (triple_liftWith _ _).bind fun _ _ => (triple_liftWith _ _).bind fun _ _ => ?_
  refine (triple_liftWith _ _).bind fun _ _ => emitsOnly_bind ?_ fun _ => ?_
  · simp only [hdry, if_true]
    exact (triple_liftWith _ _).1
  · exact (triple_liftWith _ _).bind fun _ _ => emitsOnly_withContext
      (dryRun_managedCreateSkylinkFromFileNode env blocklist hdry _ _ _) _

theorem dryRun_managedUploadSkyfile (reader : SkyfileUploadReader) :
    EmitsOnly IsDeletion (managedUploadSkyfile env blocklist sup reader) := by
  unfold managedUploadSkyfile
  dsimp only
  split
  · refine (triple_liftWith _ _).bind fun _ _ => (triple_throwSome _).bind fun _ _ => ?_
    refine (triple_liftWith _ _).bind fun _ _ => ?_
    split
    · exact emitsOnly_bind (dryRun_managedUploadSkyfileSmallFile env hdry _ _)
        fun _ => emitsOnly_pure _
    · exact emitsOnly_bind (emitsOnly_pure _)
        fun _ => dryRun_managedUploadSkyfileLargeFile env blocklist hdry _
  · exact emitsOnly_bind (emitsOnly_pure _)
      fun _ => dryRun_managedUploadSkyfileLargeFile env blocklist hdry _

end DryRun

/-- A dry run of `UploadSkyfile` uploads nothing and downloads nothing: all it may do is
    delete siafiles, when the skykey lookup keeps the dry-run flag. -/
theorem dryRun_uploadSkyfile
    (hkey : ∀ sup sup', env.generateFilekey sup = .ok sup' → sup'.dryRun = sup.dryRun)
    (sup : SkyfileUploadParameters) (hdry : sup.dryRun = true) (reader : SkyfileUploadReader) :
    EmitsOnly IsDeletion (uploadSkyfile env blocklist sup reader) := by
  unfold uploadSkyfile
  refine (triple_liftWith _ _).bind fun sup' hsup =>
    emitsOnly_cleanupAfter env sup' ?_ fun _ => trivial
  have hdry' : sup'.dryRun = true := by
    rw [hkey _ _ hsup]
    unfold skyfileEstablishDefaults
    split <;> exact hdry
  exact emitsOnly_bind (emitsOnly_withContext (dryRun_managedUploadSkyfile env blocklist hdry' _) _)
    fun _ => (triple_failIf _ _).bind fun _ _ => emitsOnly_pure _

/-! ## §7. A renter on toy collaborators -/

/-- The layout and metadata the toy parser reads from any base sector. -/
def demoLayout : SkyfileLayout :=
  { version := 1, filesize := 3, metadataSize := 0, fanoutSize := 0, fanoutDataPieces := 1,
    fanoutParityPieces := 9, cipherType := .plain, keyData := [0, 0] }

def demoMetadata : SkyfileMetadata :=
  { filename := "demo", mode := 420, length := 3, subfiles := [], defaultPath := "",
    disableDefaultPath := false }

def demoFileNode : FileNode :=
  { size := 8, mode := 420, masterKeyType := .plain, masterKey := [], subShards64 := true,
    minPieces := 1, numPieces := 10, skylinks := [] }

/-- Collaborators that all succeed, over 8-byte sectors: the Merkle root of a byte string is
    the number it spells in base 256 behind a leading 1, the skylink string of `n` letters
    loads to the skylink of root `n`, a backup is a letter count followed by the base sector,
    and no worker downloads anything. -/
def demoEnv : Env where
  sectorSize := 8
  skyfileLayoutSize := 2
  keyDataSize := 2
  skyfileVersion := 1
  extendedSuffix := "-extended"
  renterDefaultDataPieces := 10
  renterDefaultParityPieces := 20
  errProjectTimedOut := "project timed out"
  merkleRoot b := BitVec.ofNat 256 (b.foldl (fun acc x => acc * 256 + x.toNat) 1)
  hashObject r := r + 1
  skylinkBitfield _ fetchSize := some (UInt16.ofNat fetchSize)
  loadString str := if str.isEmpty then .error ["empty skylink"]
    else .ok ⟨1, BitVec.ofNat 256 str.length⟩
  offsetAndFetchSize _ := .ok (0, 8)
  validateSkyfileMetadata _ := none
  skyfileMetadataBytes _ := .ok []
  buildBaseSector _ fanout metadata file :=
    ((fanout ++ metadata ++ file ++ List.replicate 8 0).take 8, 8)
  isEncryptedBaseSector _ := false
  encryptBaseSectorWithSkykey b _ _ := .ok b
  decryptBaseSector _ := .error ["no skykey"]
  parseSkyfileMetadata _ := .ok (demoLayout, demoMetadata)
  deriveSubkey k := .ok k
  cipherKey k := .ok k.entropy
  newRSSubCode _ _ := none
  newSiaPath p := .ok p
  skynetFolderJoin str := .ok ("var/skynet/" ++ str)
  siaPathName p := p
  generateFilekey sup := .ok sup
  generateCipherKey fup _ := .ok fup
  newSiaKey _ key := .ok key
  skyfileEncodeFanout _ _ := .ok []
  restoreSkylink backup := match backup with
    | k :: rest => .ok (String.mk (List.replicate k.toNat 'A'), rest.take 8, rest.drop 8)
    | [] => .error ["backup is empty"]
  newMultipartReader _ _ := none
  openSiaFile _ := .ok demoFileNode
  callUploadStreamFromReader _ _ := .ok demoFileNode
  createFileNodeFromReader _ _ := .ok demoFileNode
  addSkylink _ _ := none
  closeFileNode _ := none
  deleteFile _ := none
  tgAdd := none
  managedDownloadByRoot _ _ _ := .error ["no workers"]
  cachedStream _ := none
  skylinkDataSource _ := .error ["no workers"]

/-- An upload of the file `[1, 2, 3]` to the siapath `demo`, unencrypted. -/
def demoUpload : SkyfileUploadParameters :=
  { siaPath := "demo", dryRun := false, force := false, baseChunkRedundancy := 0,
    filename := "demo", mode := 420, defaultPath := "", disableDefaultPath := false,
    skykeyName := "", skykeyID := [], fileSpecificSkykey := none }

def demoReader : SkyfileUploadReader := ⟨[1, 2, 3], .ok demoMetadata, []⟩

/-- The base sector of the demo file. -/
def demoSector : Bytes := [1, 2, 3, 0, 0, 0, 0, 0]

/-- The skylink of the demo file. -/
def demoSkylink : Skylink := ⟨8, demoEnv.merkleRoot demoSector⟩

/-- `UploadSkyfile` of a small file whose skylink is blocked: the small-file path uploads the
    base sector under the blocked skylink, and only then does `UploadSkyfile` consult the
    blocklist and return `ErrSkylinkBlocked` (and delete the siafiles). -/
theorem uploadSkyfile_uploads_blocked_small_file :
    isBlocked demoEnv [demoEnv.hashObject demoSkylink.merkleRoot] demoSkylink = true ∧
    (uploadSkyfile demoEnv [demoEnv.hashObject demoSkylink.merkleRoot] demoUpload
      demoReader).run [] =
      .error [errSkylinkBlocked]
        [.uploadBaseSector demoSector demoSkylink, .deleteFile "demo",
          .deleteFile "demo-extended"] :=
  ⟨by decide, rfl⟩

/-- `RestoreSkyfile` of a backup whose skylink string names root 7 and whose base sector is
    the demo sector: it uploads the sector under a skylink that does not address it, and
    reports success with that skylink. -/
theorem restoreSkyfile_mismatched_backup :
    (restoreSkyfile demoEnv [] (7 :: demoSector)).run [] =
      .ok ⟨1, 7⟩ [.uploadBaseSector demoSector ⟨1, 7⟩] ∧
    (⟨1, 7⟩ : Skylink).merkleRoot ≠ demoEnv.merkleRoot demoSector :=
  ⟨rfl, by decide⟩

/-- The file-specific skykey of the toy encryption. -/
def demoSkykey : Skykey := ⟨"demo", .threefish, [7]⟩

/-- An encrypted base sector: the marker 255, layout version 1, then six encrypted bytes. -/
def demoEncSector : Bytes := [255, 1, 10, 11, 12, 13, 14, 15]

/-- The skylink of the encrypted sector. -/
def demoEncSkylink : Skylink := ⟨8, demoEnv.merkleRoot demoEncSector⟩

/-- The demo collaborators with a toy skykey encryption that writes the layout into the
    sector, as `encryptBaseSectorWithSkykey` does: an encrypted sector is the marker 255, the
    layout's version, and the plaintext's bytes from the third on xor-ed with the skykey's
    first entropy byte; a plaintext sector starts with its layout's version. A backup is a
    base sector followed by the fanout, restored under the skylink string `enc`, and the
    workers fetch the encrypted sector by its root. -/
def demoCryptEnv : Env :=
  { demoEnv with
    isEncryptedBaseSector := fun b => b.head? == some 255
    encryptBaseSectorWithSkykey := fun plain layout key? => match key? with
      | some key => .ok (255 :: layout.version :: (plain.drop 2).map (· ^^^ key.entropy.headD 0))
      | none => .error ["no skykey"]
    decryptBaseSector := fun b => match b with
      | 255 :: version :: rest => .ok (demoSkykey, version :: 0 :: rest.map (· ^^^ 7))
      | _ => .error ["base sector is not encrypted"]
    parseSkyfileMetadata := fun plain =>
      .ok ({ demoLayout with version := plain.headD 0 }, demoMetadata)
    loadString := fun str => if str = "enc" then .ok demoEncSkylink else .error ["bad skylink"]
    restoreSkylink := fun backup => .ok ("enc", backup.take 8, backup.drop 8)
    managedDownloadByRoot := fun root _ _ =>
      if root = demoEncSkylink.merkleRoot then .ok demoEncSector else .error ["no workers"] }

/-- The toy decryption of the encrypted sector. -/
theorem demoCrypt_decrypt :
    demoCryptEnv.decryptBaseSector demoEncSector =
      .ok (demoSkykey, [1, 0, 13, 12, 11, 10, 9, 8]) := rfl

/-- What the toy workers fetch. -/
theorem demoCrypt_download_eq {root : Hash} {offset length : Nat} {fetched : Bytes}
    (h : demoCryptEnv.managedDownloadByRoot root offset length = .ok fetched) :
    root = demoEncSkylink.merkleRoot ∧ fetched = demoEncSector := by
  simp only [demoCryptEnv] at h
  split at h
  · cases h
    exact ⟨‹_›, rfl⟩
  · cases h

/-- Re-encrypting the decrypted sector under the layout parsed from it gives the sector back
    (under any other layout version it would not). -/
theorem demoCrypt_reencrypt {key : Skykey} {plain : Bytes} {layout : SkyfileLayout}
    {metadata : SkyfileMetadata}
    (hd : demoCryptEnv.decryptBaseSector demoEncSector = .ok (key, plain))
    (hp : demoCryptEnv.parseSkyfileMetadata plain = .ok (layout, metadata)) :
    demoCryptEnv.encryptBaseSectorWithSkykey plain layout (some key) = .ok demoEncSector := by
  rw [demoCrypt_decrypt] at hd
  cases hd
  cases hp
  rfl

/-- Pinning the skylink of the encrypted sector fetches it, decrypts it, parses its layout,
    re-encrypts it under that layout and uploads it again under the same skylink; a layout of
    another version would re-encrypt it to another sector. -/
theorem demoPin_addressed :
    (∀ fetched,
      demoCryptEnv.managedDownloadByRoot demoEncSkylink.merkleRoot 0 demoCryptEnv.sectorSize =
        .ok fetched → demoCryptEnv.merkleRoot fetched = demoEncSkylink.merkleRoot) ∧
    (∀ fetched key plain layout metadata,
      demoCryptEnv.managedDownloadByRoot demoEncSkylink.merkleRoot 0 demoCryptEnv.sectorSize =
        .ok fetched →
      demoCryptEnv.decryptBaseSector fetched = .ok (key, plain) →
      demoCryptEnv.parseSkyfileMetadata plain = .ok (layout, metadata) →
      demoCryptEnv.encryptBaseSectorWithSkykey plain layout (some key) = .ok fetched) ∧
    EmitsOnly (Addressed demoCryptEnv) (pinSkylink demoCryptEnv [] demoEncSkylink demoUpload 0) ∧
    (pinSkylink demoCryptEnv [] demoEncSkylink demoUpload 0).run [] =
      .ok () [.download demoEncSkylink.merkleRoot, .uploadBaseSector demoEncSector demoEncSkylink] ∧
    demoCryptEnv.encryptBaseSectorWithSkykey [1, 0, 13, 12, 11, 10, 9, 8]
      { demoLayout with version := 2 } (some demoSkykey) ≠ .ok demoEncSector := by
  refine ⟨?download, ?reencrypt,
    pinSkylink_addressed demoCryptEnv [] demoEncSkylink ?download ?reencrypt _ _, rfl,
    by simp [demoCryptEnv, demoEncSector]⟩
  case download =>
    intro _ hf
    rw [(demoCrypt_download_eq hf).2]
    rfl
  case reencrypt =>
    intro _ _ _ _ _ hf hd hp
    obtain ⟨-, rfl⟩ := demoCrypt_download_eq hf
    exact demoCrypt_reencrypt hd hp

/-- A dry run of the demo upload under the blocklist that blocks its skylink: nothing is
    uploaded, and the call returns the skylink after deleting the siafiles. -/
theorem demo_dryRun_uploads_nothing :
    (∀ sup sup', demoEnv.generateFilekey sup = .ok sup' → sup'.dryRun = sup.dryRun) ∧
    ({ demoUpload with dryRun := true } : SkyfileUploadParameters).dryRun = true ∧
    EmitsOnly IsDeletion (uploadSkyfile demoEnv [demoEnv.hashObject demoSkylink.merkleRoot]
      { demoUpload with dryRun := true } demoReader) ∧
    (uploadSkyfile demoEnv [demoEnv.hashObject demoSkylink.merkleRoot]
      { demoUpload with dryRun := true } demoReader).run [] =
      .ok demoSkylink [.deleteFile "demo", .deleteFile "demo-extended"] :=
  ⟨fun _ _ h => by cases h; rfl, rfl,
    dryRun_uploadSkyfile demoEnv _ (fun _ _ h => by cases h; rfl) _ rfl _, rfl⟩

/-- Restoring a backup of the encrypted sector: its skylink names the sector's root, and the
    restore decrypts the sector, re-encrypts it under the parsed layout and uploads it under
    that skylink. -/
theorem demo_consistent_restore_addressed :
    (∀ skylinkStr baseSector rest key plain layout metadata,
      demoCryptEnv.restoreSkylink demoEncSector = .ok (skylinkStr, baseSector, rest) →
      demoCryptEnv.decryptBaseSector baseSector = .ok (key, plain) →
      demoCryptEnv.parseSkyfileMetadata plain = .ok (layout, metadata) →
      demoCryptEnv.encryptBaseSectorWithSkykey plain layout (some key) = .ok baseSector) ∧
    (∀ skylinkStr baseSector rest skylink,
      demoCryptEnv.restoreSkylink demoEncSector = .ok (skylinkStr, baseSector, rest) →
      demoCryptEnv.loadString skylinkStr = .ok skylink →
        skylink.merkleRoot = demoCryptEnv.merkleRoot baseSector) ∧
    EmitsOnly (Addressed demoCryptEnv) (restoreSkyfile demoCryptEnv [] demoEncSector) ∧
    (restoreSkyfile demoCryptEnv [] demoEncSector).run [] =
      .ok demoEncSkylink [.uploadBaseSector demoEncSector demoEncSkylink] := by
  refine ⟨?reencrypt, ?backup, restoreSkyfile_addressed demoCryptEnv [] ?reencrypt ?backup, rfl⟩
  case reencrypt =>
    intro _ _ _ _ _ _ _ hr hd hp
    cases hr
    exact demoCrypt_reencrypt hd hp
  case backup =>
    intro _ _ _ _ hr hl
    cases hr
    cases hl
    rfl

end FormalSia.Renter
