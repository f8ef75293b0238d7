/-
  FormalSia.Renter.BaseSector — which upload path a skyfile takes, and that every base sector
  the renter builds fits in a sector (`modules/renter/skyfile.go`).

  `managedUploadSkyfile` reads up to a sector of the file; `io.ReadFull` reports an end of
  file exactly when the file is shorter than a sector.  The file is then small when the layout,
  the metadata and the file fit in one sector together.  A small file's base sector holds the
  layout, the metadata and the file; a large file's, built by
  `managedCreateSkylinkFromFileNode`, holds the layout, the fanout and the metadata, after a
  check that they fit.

  `modules.BuildBaseSector` is outside the sources.  That no content handed to it is larger
  than a sector is stated as a non-interference fact: the entry points compute the same
  whatever `BuildBaseSector` does with content beyond a sector (`AgreesWithinSector`).

  Main result:
    * `managedUploadSkyfile_paths` — for every file and every valid metadata, the small-file
      path is taken exactly when `SkyfileLayoutSize + len(metadataBytes) + len(file) ≤
      SectorSize`; and on both paths, and in `managedCreateSkylinkFromFileNode` for every
      siafile, the content of the base sector fits in a sector.
-/
import FormalSia.Renter.SkyfileProofs

namespace FormalSia.Renter

variable (env : Env) (blocklist : List Hash)

/-- A base-sector builder that agrees with `env`'s on every content that fits in a sector:
    layout, fanout, metadata and file of at most `SectorSize` bytes together. -/
def AgreesWithinSector (build : SkyfileLayout → Bytes → Bytes → Bytes → Bytes × Nat) : Prop :=
  ∀ sl fanout metadata file,
    env.skyfileLayoutSize + fanout.length + metadata.length + file.length ≤ env.sectorSize →
      build sl fanout metadata file = env.buildBaseSector sl fanout metadata file

/-! ## §1. The choice of path -/

/-- With the metadata read, valid and encoded, `managedUploadSkyfile` takes the small-file path
    exactly when the layout, the metadata and the file fit in a sector. -/
theorem managedUploadSkyfile_eq (sup : SkyfileUploadParameters) {reader : SkyfileUploadReader}
    {md : SkyfileMetadata} {mb : Bytes} (hlay : 0 < env.skyfileLayoutSize)
    (hmd : reader.metadata = .ok md) (hvalid : env.validateSkyfileMetadata md = none)
    (hmb : env.skyfileMetadataBytes md = .ok mb) :
    managedUploadSkyfile env blocklist sup reader =
      if env.skyfileLayoutSize + mb.length + reader.data.length ≤ env.sectorSize then
        managedUploadSkyfileSmallFile env sup mb reader.data
      else managedUploadSkyfileLargeFile env blocklist sup reader := by
  unfold managedUploadSkyfile
  simp only [hmd, hvalid, hmb, Renter.liftWith, Renter.throwSome, Option.map_none', pure_bind,
    bind_pure]
  by_cases hL : reader.data.length < env.sectorSize
  · rw [if_pos hL, List.take_of_length_le hL.le]
    by_cases hfit : env.skyfileLayoutSize + mb.length + reader.data.length ≤ env.sectorSize
    · rw [if_pos (by omega), if_pos hfit]
    · rw [if_neg (by omega), if_neg hfit]
  · -- a file of a sector or more is large: its header cannot fit beside it
    rw [if_neg hL, if_neg (by omega)]

/-! ## §2. Every base sector fits -/

section Capacity

variable {env} {build : SkyfileLayout → Bytes → Bytes → Bytes → Bytes × Nat}

/-- After a passed `failIf c`, only the continuation's value at `c = false` matters. -/
theorem failIf_bind_congr {α : Type} {c : Bool} {err : Error} {k k' : Unit → SkyM α}
    (h : c = false → k () = k' ()) : failIf c err >>= k = failIf c err >>= k' := by
  cases c
  · simp only [failIf, Bool.false_eq_true, if_false, pure_bind, h rfl]
  · rfl

/-- The small-file path builds its base sector from the layout, the metadata and the file. -/
theorem managedUploadSkyfileSmallFile_build (hb : AgreesWithinSector env build)
    (sup : SkyfileUploadParameters) {metadataBytes fileBytes : Bytes}
    (hfit : env.skyfileLayoutSize + metadataBytes.length + fileBytes.length ≤ env.sectorSize) :
    managedUploadSkyfileSmallFile { env with buildBaseSector := build } sup metadataBytes fileBytes =
      managedUploadSkyfileSmallFile env sup metadataBytes fileBytes := by
  unfold managedUploadSkyfileSmallFile
  dsimp only
  rw [hb _ _ _ _ (by simpa using hfit)]
  rfl

/-- `managedCreateSkylinkFromFileNode` builds its base sector from the layout, the fanout and
    the metadata only after checking that they fit. -/
theorem managedCreateSkylinkFromFileNode_build (hb : AgreesWithinSector env build)
    (sup : SkyfileUploadParameters) (skyfileMetadata : SkyfileMetadata) (fileNode : FileNode)
    (fanoutReader : Bytes) :
    managedCreateSkylinkFromFileNode { env with buildBaseSector := build } blocklist sup
        skyfileMetadata fileNode fanoutReader =
      managedCreateSkylinkFromFileNode env blocklist sup skyfileMetadata fileNode fanoutReader := by
  unfold managedCreateSkylinkFromFileNode
  refine bind_congr fun _ => bind_congr fun _ => bind_congr fun _ => bind_congr fun _ =>
    bind_congr fun metadataBytes => bind_congr fun fanoutBytes => failIf_bind_congr fun hc => ?_
  simp only [decide_eq_false_iff_not, gt_iff_lt, Nat.not_lt] at hc
  dsimp only
  rw [hb _ _ _ _ (by simp only [List.length_nil]; omega)]
  rfl

/-- The large-file path builds its base sector in `managedCreateSkylinkFromFileNode`. -/
theorem managedUploadSkyfileLargeFile_build (hb : AgreesWithinSector env build)
    (sup : SkyfileUploadParameters) (reader : SkyfileUploadReader) :
    managedUploadSkyfileLargeFile { env with buildBaseSector := build } blocklist sup reader =
      managedUploadSkyfileLargeFile env blocklist sup reader := by
  unfold managedUploadSkyfileLargeFile
  simp only [managedCreateSkylinkFromFileNode_build blocklist hb]
  rfl

/-- On either path, `managedUploadSkyfile` hands `BuildBaseSector` only content that fits. -/
theorem managedUploadSkyfile_build (hb : AgreesWithinSector env build)
    (sup : SkyfileUploadParameters) (reader : SkyfileUploadReader) :
    managedUploadSkyfile { env with buildBaseSector := build } blocklist sup reader =
      managedUploadSkyfile env blocklist sup reader := by
  unfold managedUploadSkyfile
  simp only [managedUploadSkyfileLargeFile_build blocklist hb]
  by_cases hL : reader.data.length < env.sectorSize
  · rw [if_pos hL, if_pos hL]
    refine bind_congr fun _ => bind_congr fun _ => bind_congr fun metadataBytes => ?_
    split_ifs with hfit
    · rw [managedUploadSkyfileSmallFile_build hb sup (by omega)]
    · rfl
  · rw [if_neg hL, if_neg hL]

end Capacity

/-! ## §3. The two paths agree on the capacity -/

/-- For every file and every valid metadata, the small-file path is taken exactly when the
    layout, the metadata and the file fit in a sector.  Every base-sector content a path hands
    to `BuildBaseSector` fits in a sector, so the two paths have one capacity bound:
    layout + metadata + file on the small-file path, layout + fanout + metadata in
    `managedCreateSkylinkFromFileNode`, and so on both paths of `managedUploadSkyfile`. -/
theorem managedUploadSkyfile_paths (sup : SkyfileUploadParameters) {reader : SkyfileUploadReader}
    {md : SkyfileMetadata} {mb : Bytes} (hlay : 0 < env.skyfileLayoutSize)
    (hmd : reader.metadata = .ok md) (hvalid : env.validateSkyfileMetadata md = none)
    (hmb : env.skyfileMetadataBytes md = .ok mb) :
    managedUploadSkyfile env blocklist sup reader =
      (if env.skyfileLayoutSize + mb.length + reader.data.length ≤ env.sectorSize then
        managedUploadSkyfileSmallFile env sup mb reader.data
      else managedUploadSkyfileLargeFile env blocklist sup reader) ∧
    ∀ build, AgreesWithinSector env build →
      (∀ sup' metadataBytes fileBytes,
        env.skyfileLayoutSize + metadataBytes.length + fileBytes.length ≤ env.sectorSize →
        managedUploadSkyfileSmallFile { env with buildBaseSector := build } sup' metadataBytes
            fileBytes = managedUploadSkyfileSmallFile env sup' metadataBytes fileBytes) ∧
      (∀ sup' skyfileMetadata fileNode fanoutReader,
        managedCreateSkylinkFromFileNode { env with buildBaseSector := build } blocklist sup'
            skyfileMetadata fileNode fanoutReader =
          managedCreateSkylinkFromFileNode env blocklist sup' skyfileMetadata fileNode
            fanoutReader) ∧
      ∀ sup' reader',
        managedUploadSkyfile { env with buildBaseSector := build } blocklist sup' reader' =
          managedUploadSkyfile env blocklist sup' reader' :=
  ⟨managedUploadSkyfile_eq env blocklist sup hlay hmd hvalid hmb, fun _ hb =>
    ⟨fun sup' _ _ hfit => managedUploadSkyfileSmallFile_build hb sup' hfit,
      managedCreateSkylinkFromFileNode_build blocklist hb,
      managedUploadSkyfile_build blocklist hb⟩⟩

/-- The toy renter's three-byte file: a two-byte layout, empty metadata and the file fit in
    its eight-byte sector, so the file is small. -/
theorem demo_small_file_path :
    (0 < demoEnv.skyfileLayoutSize ∧ demoReader.metadata = .ok demoMetadata ∧
      demoEnv.validateSkyfileMetadata demoMetadata = none ∧
      demoEnv.skyfileMetadataBytes demoMetadata = .ok []) ∧
    (managedUploadSkyfile demoEnv [] demoUpload demoReader =
      (if demoEnv.skyfileLayoutSize + ([] : Bytes).length + demoReader.data.length ≤
          demoEnv.sectorSize then
        managedUploadSkyfileSmallFile demoEnv demoUpload [] demoReader.data
      else managedUploadSkyfileLargeFile demoEnv [] demoUpload demoReader) ∧
    ∀ build, AgreesWithinSector demoEnv build →
      (∀ sup' metadataBytes fileBytes,
        demoEnv.skyfileLayoutSize + metadataBytes.length + fileBytes.length ≤
            demoEnv.sectorSize →
        managedUploadSkyfileSmallFile { demoEnv with buildBaseSector := build } sup'
            metadataBytes fileBytes = managedUploadSkyfileSmallFile demoEnv sup' metadataBytes
            fileBytes) ∧
      (∀ sup' skyfileMetadata fileNode fanoutReader,
        managedCreateSkylinkFromFileNode { demoEnv with buildBaseSector := build } [] sup'
            skyfileMetadata fileNode fanoutReader =
          managedCreateSkylinkFromFileNode demoEnv [] sup' skyfileMetadata fileNode
            fanoutReader) ∧
      ∀ sup' reader',
        managedUploadSkyfile { demoEnv with buildBaseSector := build } [] sup' reader' =
          managedUploadSkyfile demoEnv [] sup' reader') ∧
    managedUploadSkyfile demoEnv [] demoUpload demoReader =
      managedUploadSkyfileSmallFile demoEnv demoUpload [] demoReader.data :=
  ⟨⟨by decide, rfl, rfl, rfl⟩,
    managedUploadSkyfile_paths demoEnv [] demoUpload (by decide) rfl rfl rfl,
    (managedUploadSkyfile_paths demoEnv [] demoUpload (by decide) rfl rfl rfl).1.trans
      (if_pos (by decide))⟩

end FormalSia.Renter
