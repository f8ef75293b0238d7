/-
  FormalSia.Renter.Skyfile — uploading, converting, pinning, restoring and downloading
  skyfiles (`modules/renter/skyfile.go`).

  A skyfile's base sector holds its layout, its metadata and either the whole file or the
  fanout of the file's other sectors; its skylink carries the base sector's Merkle root.
  Every entry point is a computation in `SkyM`, an error-and-state monad whose state is the
  list of effects the call has had so far, in order: a base sector uploaded under a skylink
  (`managedUploadBaseSector`), another siafile uploaded, data downloaded by Merkle root, a
  siafile deleted.  An error returns early and keeps the effects before it, as a Go
  `return` does; a deferred call runs after the body, on every exit.

  Everything the functions call outside the sources is a field of `Env`: the constants of
  `modules`, the hashes, the skykey encryption, the metadata codecs, the erasure coders, the
  file system and the download workers.  Skylinks and the blocklist are outside the sources
  too; they are modelled from the spec (§4.I, §4.J): a skylink is a bitfield and a Merkle
  root, and the blocklist holds the `HashObject` of every blocked root.  The test hooks
  `deps.Disrupt` are left out: production dependencies never disrupt.
-/
import FormalSia.Types.Basic

namespace FormalSia.Renter

/-! ## §1. Values -/

/-- Modelled from the spec: a skylink, two bytes of bitfield and the base sector's root. -/
structure Skylink where
  bitfield : UInt16
  merkleRoot : Hash
  deriving DecidableEq, Repr

/-- `crypto.CipherType`. -/
inductive CipherType where
  | plain
  | threefish
  | xChaCha20
  deriving DecidableEq, Repr

/-- `skykey.Skykey`. -/
structure Skykey where
  name : String
  cipherType : CipherType
  entropy : Bytes
  deriving DecidableEq, Repr

/-- `modules.SkyfileLayout`. -/
structure SkyfileLayout where
  version : UInt8
  filesize : Nat
  metadataSize : Nat
  fanoutSize : Nat
  fanoutDataPieces : UInt8
  fanoutParityPieces : UInt8
  cipherType : CipherType
  keyData : Bytes
  deriving DecidableEq, Repr

/-- `modules.SkyfileMetadata`, with the fields the renter reads. -/
structure SkyfileMetadata where
  filename : String
  mode : Nat
  length : Nat
  subfiles : List String
  defaultPath : String
  disableDefaultPath : Bool
  deriving DecidableEq, Repr

/-- `modules.SkyfileUploadParameters`; `none` is the zero `FileSpecificSkykey`. -/
structure SkyfileUploadParameters where
  siaPath : String
  dryRun : Bool
  force : Bool
  baseChunkRedundancy : UInt8
  filename : String
  mode : Nat
  defaultPath : String
  disableDefaultPath : Bool
  skykeyName : String
  skykeyID : Bytes
  fileSpecificSkykey : Option Skykey
  deriving DecidableEq, Repr

/-- `modules.FileUploadParams`; the erasure coder is given by its piece counts. -/
structure FileUploadParams where
  siaPath : String
  dataPieces : Int
  parityPieces : Int
  force : Bool
  disablePartialChunk : Bool
  repair : Bool
  cipherType : CipherType
  cipherKey : Bytes
  deriving DecidableEq, Repr

/-- `filesystem.FileNode`, with what the skyfile code reads of the siafile. -/
structure FileNode where
  size : Nat
  mode : Nat
  masterKeyType : CipherType
  masterKey : Bytes
  /-- `ErasureCode().Type() == modules.ECReedSolomonSubShards64`. -/
  subShards64 : Bool
  minPieces : Nat
  numPieces : Nat
  /-- `Metadata().Skylinks`. -/
  skylinks : List String
  deriving DecidableEq, Repr

/-- `modules.SkyfileUploadReader`: the file's bytes, its metadata and its fanout reader. -/
structure SkyfileUploadReader where
  data : Bytes
  metadata : Except Error SkyfileMetadata
  fanout : Bytes

/-- What a call has done to the network and the renter's files. -/
inductive Effect where
  /-- `managedUploadBaseSector` streams `baseSector` to the hosts for `skylink`. -/
  | uploadBaseSector (baseSector : Bytes) (skylink : Skylink)
  /-- `callUploadStreamFromReader` uploads another siafile. -/
  | uploadFile (siaPath : String)
  /-- The workers download data by Merkle root. -/
  | download (root : Hash)
  /-- `DeleteFile`. -/
  | deleteFile (siaPath : String)
  deriving DecidableEq, Repr

/-- `ErrEncryptionNotSupported`. -/
def errEncryptionNotSupported : String := "skykey encryption not supported"

/-- `ErrInvalidMetadata`. -/
def errInvalidMetadata : String := "metadata is invalid"

/-- `ErrMetadataTooBig`. -/
def errMetadataTooBig : String := "metadata exceeds sectorsize"

/-- `ErrSkylinkBlocked`. -/
def errSkylinkBlocked : String := "skylink is blocked"

/-- `SkyfileDefaultBaseChunkRedundancy` of the standard build. -/
def skyfileDefaultBaseChunkRedundancy : UInt8 := 10

/-! ## §2. The calls outside the sources -/

/-- The constants and calls of the renter that the sources use but do not define. -/
structure Env where
  /-- `modules.SectorSize`. -/
  sectorSize : Nat
  /-- `modules.SkyfileLayoutSize`. -/
  skyfileLayoutSize : Nat
  /-- The length of `SkyfileLayout.KeyData`. -/
  keyDataSize : Nat
  /-- `modules.SkyfileVersion`. -/
  skyfileVersion : UInt8
  /-- `modules.ExtendedSuffix`. -/
  extendedSuffix : String
  /-- `modules.RenterDefaultDataPieces`. -/
  renterDefaultDataPieces : Int
  /-- `modules.RenterDefaultParityPieces`. -/
  renterDefaultParityPieces : Int
  /-- The text of `ErrProjectTimedOut`. -/
  errProjectTimedOut : String
  /-- `crypto.MerkleRoot`. -/
  merkleRoot : Bytes → Hash
  /-- `crypto.HashObject` of a Merkle root. -/
  hashObject : Hash → Hash
  /-- The skylink bitfield of an offset and a fetch size, `none` off the grid. -/
  skylinkBitfield : Nat → Nat → Option UInt16
  /-- `Skylink.LoadString`. -/
  loadString : String → Except Error Skylink
  /-- `Skylink.OffsetAndFetchSize`. -/
  offsetAndFetchSize : Skylink → Except Error (Nat × Nat)
  /-- `modules.ValidateSkyfileMetadata`. -/
  validateSkyfileMetadata : SkyfileMetadata → Option Error
  /-- `modules.SkyfileMetadataBytes`. -/
  skyfileMetadataBytes : SkyfileMetadata → Except Error Bytes
  /-- `modules.BuildBaseSector(layout, fanout, metadata, file)`: the sector, the fetch size. -/
  buildBaseSector : SkyfileLayout → Bytes → Bytes → Bytes → Bytes × Nat
  /-- `modules.IsEncryptedBaseSector`. -/
  isEncryptedBaseSector : Bytes → Bool
  /-- `encryptBaseSectorWithSkykey`: the encrypted sector. -/
  encryptBaseSectorWithSkykey : Bytes → SkyfileLayout → Option Skykey → Except Error Bytes
  /-- `decryptBaseSector`: the file-specific skykey and the decrypted sector. -/
  decryptBaseSector : Bytes → Except Error (Skykey × Bytes)
  /-- `modules.ParseSkyfileMetadata`: the layout and the metadata. -/
  parseSkyfileMetadata : Bytes → Except Error (SkyfileLayout × SkyfileMetadata)
  /-- `Skykey.DeriveSubkey(modules.FanoutNonceDerivation)`. -/
  deriveSubkey : Skykey → Except Error Skykey
  /-- `Skykey.CipherKey`. -/
  cipherKey : Skykey → Except Error Bytes
  /-- `modules.NewRSSubCode(data, parity, crypto.SegmentSize)`: its error, if any. -/
  newRSSubCode : Int → Int → Option Error
  /-- `modules.NewSiaPath`. -/
  newSiaPath : String → Except Error String
  /-- `modules.SkynetFolder.Join`. -/
  skynetFolderJoin : String → Except Error String
  /-- `SiaPath.Name`. -/
  siaPathName : String → String
  /-- `generateFilekey`: the parameters with the file-specific skykey set. -/
  generateFilekey : SkyfileUploadParameters → Except Error SkyfileUploadParameters
  /-- `generateCipherKey`: the upload parameters with the cipher key set. -/
  generateCipherKey : FileUploadParams → SkyfileUploadParameters → Except Error FileUploadParams
  /-- `crypto.NewSiaKey`. -/
  newSiaKey : CipherType → Bytes → Except Error Bytes
  /-- `skyfileEncodeFanout`. -/
  skyfileEncodeFanout : FileNode → Bytes → Except Error Bytes
  /-- `modules.RestoreSkylink`: the skylink string, the base sector and the rest. -/
  restoreSkylink : Bytes → Except Error (String × Bytes × Bytes)
  /-- `modules.NewMultipartReader`: its error, if any. -/
  newMultipartReader : Bytes → List String → Option Error
  /-- `staticFileSystem.OpenSiaFile`. -/
  openSiaFile : String → Except Error FileNode
  /-- `callUploadStreamFromReader`: the siafile of the upload. -/
  callUploadStreamFromReader : FileUploadParams → Bytes → Except Error FileNode
  /-- `managedCreateFileNodeFromReader`: the siafile of a dry run. -/
  createFileNodeFromReader : FileUploadParams → Bytes → Except Error FileNode
  /-- `FileNode.AddSkylink`: its error, if any. -/
  addSkylink : FileNode → Skylink → Option Error
  /-- `FileNode.Close`: its error, if any. -/
  closeFileNode : FileNode → Option Error
  /-- `DeleteFile`: its error, if any. -/
  deleteFile : String → Option Error
  /-- `tg.Add()`: its error once the renter stops. -/
  tgAdd : Option Error
  /-- `managedDownloadByRoot(root, offset, length)`. -/
  managedDownloadByRoot : Hash → Nat → Nat → Except Error Bytes
  /-- `staticStreamBufferSet.callNewStreamFromID`: a stream already open for the skylink. -/
  cachedStream : Skylink → Option (SkyfileLayout × SkyfileMetadata × Bytes)
  /-- `skylinkDataSource` and its stream: the layout, the metadata and the data. -/
  skylinkDataSource : Skylink → Except Error (SkyfileLayout × SkyfileMetadata × Bytes)

/-! ## §3. The monad -/

/-- A renter call: an error or a value, and the effects so far. -/
abbrev SkyM := EStateM Error (List Effect)

/-- Record an effect. -/
def emit (e : Effect) : SkyM Unit := modify (· ++ [e])

/-- A fallible call whose error the caller returns with `errors.AddContext`. -/
def liftWith {α : Type} (x : Except Error α) (context : String) : SkyM α :=
  match x with
  | .ok a => pure a
  | .error err => throw (err.addContext context)

/-- A call returning only an error, which the caller returns with context. -/
def checkWith (x : Option Error) (context : String) : SkyM Unit :=
  match x with
  | none => pure ()
  | some err => throw (err.addContext context)

/-- `if c { return ..., err }`. -/
def failIf (c : Bool) (err : Error) : SkyM Unit :=
  if c then throw err else pure ()

/-- `if err != nil { return ..., err }`. -/
def throwSome (x : Option Error) : SkyM Unit :=
  match x with
  | none => pure ()
  | some err => throw err

/-- A renter call whose error the caller changes by `f`. -/
def mapError {α : Type} (f : Error → Error) (m : SkyM α) : SkyM α := fun s =>
  match m s with
  | .ok a s' => .ok a s'
  | .error err s' => .error (f err) s'

/-- `errors.AddContext` on the error of a renter call. -/
def withContext {α : Type} (m : SkyM α) (context : String) : SkyM α :=
  mapError (·.addContext context) m

/-- A deferred `err = errors.Compose(err, closeErr)` after a call. -/
def withClose {α : Type} (m : SkyM α) (closeErr : Option Error) : SkyM α := fun s =>
  match m s with
  | .ok a s' =>
    match closeErr with
    | none => .ok a s'
    | some err => .error err s'
  | .error err s' => .error (err ++ closeErr.getD []) s'

/-! ## §4. Helpers of `skyfile.go` -/

variable (env : Env) (blocklist : List Hash)

/-- Modelled from the spec: `IsHashBlocked`, membership in the blocklist. -/
def isHashBlocked (h : Hash) : Bool := blocklist.contains h

/-- Modelled from the spec: `IsBlocked(skylink)`, the skylink's root is blocked. -/
def isBlocked (skylink : Skylink) : Bool := isHashBlocked blocklist (env.hashObject skylink.merkleRoot)

/-- Modelled from the spec: `modules.NewSkylinkV1`, version 1 with the offset and fetch size
    in the bitfield and the root. -/
def newSkylinkV1 (root : Hash) (offset fetchSize : Nat) : Except Error Skylink :=
  match env.skylinkBitfield offset fetchSize with
  | some bitfield => .ok ⟨bitfield, root⟩
  | none => .error ["offset and fetch size are not on the skylink grid"]

/-- Modelled from the spec: `encryptionEnabled`, a skykey named or identified. -/
def encryptionEnabled (sup : SkyfileUploadParameters) : Bool :=
  sup.skykeyName != "" || sup.skykeyID != []

/-- `skyfileEstablishDefaults`. -/
def skyfileEstablishDefaults (lup : SkyfileUploadParameters) : SkyfileUploadParameters :=
  if lup.baseChunkRedundancy = 0 then
    { lup with baseChunkRedundancy := skyfileDefaultBaseChunkRedundancy }
  else lup

/-- `fileUploadParams`. -/
def fileUploadParams (siaPath : String) (dataPieces parityPieces : Int) (force : Bool)
    (ct : CipherType) : Except Error FileUploadParams :=
  match env.newRSSubCode dataPieces parityPieces with
  | some err => .error (err.addContext "unable to create erasure coder")
  | none =>
    .ok
      { siaPath := siaPath, dataPieces := dataPieces, parityPieces := parityPieces,
        force := force, disablePartialChunk := true, repair := false, cipherType := ct,
        cipherKey := [] }

/-- `baseSectorUploadParamsFromSUP`: 1-of-N, unencrypted. -/
def baseSectorUploadParamsFromSUP (sup : SkyfileUploadParameters) :
    Except Error FileUploadParams :=
  let sup := skyfileEstablishDefaults sup
  fileUploadParams env sup.siaPath 1 ((sup.baseChunkRedundancy.toNat : Int) - 1) sup.force
    .plain

/-- `copy(sl.KeyData[:], key)`. -/
def keyDataOf (key : Bytes) : Bytes :=
  (key ++ List.replicate env.keyDataSize 0).take env.keyDataSize

/-- `isFileNodeBlocked`: a skylink of the siafile that loads and is blocked. -/
def isFileNodeBlocked (fileNode : FileNode) : Bool :=
  fileNode.skylinks.any fun skylinkstr =>
    match env.loadString skylinkstr with
    | .ok skylink => isBlocked env blocklist skylink
    | .error _ => false

/-- `errors.Compose(ErrSkylinkBlocked, r.DeleteFile(siaPath))`. -/
def refuseBlocked {α : Type} (siaPath : String) : SkyM α := do
  emit (.deleteFile siaPath)
  throw (errSkylinkBlocked :: (env.deleteFile siaPath).getD [])

/-- `if blocked { return ..., errors.Compose(ErrSkylinkBlocked, r.DeleteFile(siaPath)) }`. -/
def refuseIf (blocked : Bool) (siaPath : String) : SkyM Unit :=
  if blocked then refuseBlocked env siaPath else pure ()

/-- The encryption of a new base sector, when the upload parameters name a skykey. -/
def encryptIfEnabled (sup : SkyfileUploadParameters) (baseSector : Bytes) (sl : SkyfileLayout) :
    SkyM Bytes :=
  if encryptionEnabled sup then
    liftWith (env.encryptBaseSectorWithSkykey baseSector sl sup.fileSpecificSkykey)
      "Failed to encrypt base sector for upload"
  else pure baseSector

/-- The decryption of a fetched or restored base sector, when it is encrypted: the
    file-specific skykey, if any, and the plaintext sector. -/
def decryptIfEncrypted (baseSector : Bytes) : SkyM (Option Skykey × Bytes) :=
  if env.isEncryptedBaseSector baseSector then do
    let (fileSpecificSkykey, plain) ← liftWith (env.decryptBaseSector baseSector)
      "Unable to decrypt skyfile base sector"
    pure (some fileSpecificSkykey, plain)
  else pure (none, baseSector)

/-! ## §5. Uploads -/

/-- `managedUploadBaseSector`. -/
def managedUploadBaseSector (sup : SkyfileUploadParameters) (baseSector : Bytes)
    (skylink : Skylink) : SkyM Unit := do
  let uploadParams ← liftWith (baseSectorUploadParamsFromSUP env sup)
    "failed to create siafile upload parameters"
  emit (.uploadBaseSector baseSector skylink)
  let fileNode ← liftWith (env.callUploadStreamFromReader uploadParams baseSector)
    "failed to stream upload small skyfile"
  let addErr := (env.addSkylink fileNode skylink).map (·.addContext "unable to add skylink to siafile")
  match Error.compose addErr (env.closeFileNode fileNode) with
  | none => pure ()
  | some err => throw err

/-- `managedCreateSkylinkFromFileNode`. -/
def managedCreateSkylinkFromFileNode (sup : SkyfileUploadParameters)
    (skyfileMetadata : SkyfileMetadata) (fileNode : FileNode) (fanoutReader : Bytes) :
    SkyM Skylink := do
  throwSome ((env.validateSkyfileMetadata skyfileMetadata).map (errInvalidMetadata :: ·))
  refuseIf env (isFileNodeBlocked env blocklist fileNode) sup.siaPath
  failIf (fileNode.masterKey.length > env.keyDataSize)
    ["cipher key is not supported by the skyfile format"]
  failIf (!fileNode.subShards64) ["siafile has unsupported erasure code type"]
  let metadataBytes ← liftWith (env.skyfileMetadataBytes skyfileMetadata)
    "error retrieving skyfile metadata bytes"
  let fanoutBytes ← liftWith (env.skyfileEncodeFanout fileNode fanoutReader)
    "unable to encode the fanout of the siafile"
  let headerSize := env.skyfileLayoutSize + metadataBytes.length + fanoutBytes.length
  failIf (headerSize > env.sectorSize)
    ["skyfile does not fit in leading chunk - metadata size plus fanout size must be " ++
      "less than " ++ toString (env.sectorSize - env.skyfileLayoutSize) ++
      " bytes, metadata size is " ++ toString metadataBytes.length ++
      " bytes and fanout size is " ++ toString fanoutBytes.length ++ " bytes",
      errMetadataTooBig]
  let sl : SkyfileLayout :=
    { version := env.skyfileVersion, filesize := fileNode.size,
      metadataSize := metadataBytes.length, fanoutSize := fanoutBytes.length,
      fanoutDataPieces := UInt8.ofNat fileNode.minPieces,
      fanoutParityPieces := UInt8.ofNat (fileNode.numPieces - fileNode.minPieces),
      cipherType := fileNode.masterKeyType,
      keyData := keyDataOf env (if encryptionEnabled sup then [] else fileNode.masterKey) }
  let (baseSector, fetchSize) := env.buildBaseSector sl fanoutBytes metadataBytes []
  let baseSector ← encryptIfEnabled env sup baseSector sl
  let baseSectorRoot := env.merkleRoot baseSector
  let skylink ← liftWith (newSkylinkV1 env baseSectorRoot 0 fetchSize) "unable to build skylink"
  if sup.dryRun then
    return skylink
  refuseIf env (isBlocked env blocklist skylink) sup.siaPath
  checkWith (env.addSkylink fileNode skylink) "unable to add skylink to the sianodes"
  withContext (managedUploadBaseSector env sup baseSector skylink)
    "Unable to upload base sector for file node. "
  return skylink

/-- `CreateSkylinkFromSiafile`. -/
def createSkylinkFromSiafile (sup : SkyfileUploadParameters) (siaPath : String) :
    SkyM Skylink := do
  failIf (encryptionEnabled sup) ["unable to convert siafile", errEncryptionNotSupported]
  let sup := skyfileEstablishDefaults sup
  let fileNode ← liftWith (env.openSiaFile siaPath) "unable to open siafile"
  let metadata : SkyfileMetadata :=
    { filename := env.siaPathName siaPath, mode := fileNode.mode, length := fileNode.size,
      subfiles := [], defaultPath := "", disableDefaultPath := false }
  withClose (managedCreateSkylinkFromFileNode env blocklist sup metadata fileNode [])
    (env.closeFileNode fileNode)

/-- `managedUploadSkyfileSmallFile`. -/
def managedUploadSkyfileSmallFile (sup : SkyfileUploadParameters)
    (metadataBytes fileBytes : Bytes) : SkyM Skylink := do
  let sl : SkyfileLayout :=
    { version := env.skyfileVersion, filesize := fileBytes.length,
      metadataSize := metadataBytes.length, fanoutSize := 0, fanoutDataPieces := 0,
      fanoutParityPieces := 0, cipherType := .plain, keyData := keyDataOf env [] }
  let (baseSector, fetchSize) := env.buildBaseSector sl [] metadataBytes fileBytes
  let baseSector ← encryptIfEnabled env sup baseSector sl
  let baseSectorRoot := env.merkleRoot baseSector
  let skylink ← liftWith (newSkylinkV1 env baseSectorRoot 0 fetchSize)
    "failed to build the skylink"
  if sup.dryRun then
    return skylink
  withContext (managedUploadBaseSector env sup baseSector skylink) "failed to upload base sector"
  return skylink

/-- `managedUploadSkyfileLargeFile`. -/
def managedUploadSkyfileLargeFile (sup : SkyfileUploadParameters)
    (fileReader : SkyfileUploadReader) : SkyM Skylink := do
  let siaPath ← liftWith (env.newSiaPath (sup.siaPath ++ env.extendedSuffix))
    "unable to create SiaPath for large skyfile extended data"
  let fup ← liftWith (fileUploadParams env siaPath env.renterDefaultDataPieces
    env.renterDefaultParityPieces sup.force .plain)
    "unable to create FileUploadParams for large file"
  let fup ← liftWith (env.generateCipherKey fup sup)
    "unable to create Cipher key for FileUploadParams"
  let fileNode ← (if sup.dryRun then
      liftWith (env.createFileNodeFromReader fup fileReader.data) "unable to upload large skyfile"
    else do
      emit (.uploadFile fup.siaPath)
      liftWith (env.callUploadStreamFromReader fup fileReader.data)
        "unable to upload large skyfile")
  let metadata ← liftWith fileReader.metadata "unable to get skyfile metadata"
  withContext
    (managedCreateSkylinkFromFileNode env blocklist sup metadata fileNode fileReader.fanout)
    "unable to create skylink from filenode"

/-- `managedUploadSkyfile`: a file that `io.ReadFull` finds shorter than a sector, and that
    fits in one with its header, is a small file. -/
def managedUploadSkyfile (sup : SkyfileUploadParameters) (reader : SkyfileUploadReader) :
    SkyM Skylink := do
  let buf := reader.data.take env.sectorSize
  let numBytes := buf.length
  if reader.data.length < env.sectorSize then
    let metadata ← liftWith reader.metadata "unable to get skyfile metadata"
    throwSome ((env.validateSkyfileMetadata metadata).map (errInvalidMetadata :: ·))
    let metadataBytes ← liftWith (env.skyfileMetadataBytes metadata)
      "unable to get skyfile metadata bytes"
    let headerSize := env.skyfileLayoutSize + metadataBytes.length
    if numBytes + headerSize ≤ env.sectorSize then
      return ← managedUploadSkyfileSmallFile env sup metadataBytes buf
  managedUploadSkyfileLargeFile env blocklist sup reader

/-- The deferred clean-up of `UploadSkyfile`: after an error or a dry run, delete the siafile
    and its extended siafile. -/
def cleanupAfter (sup : SkyfileUploadParameters) (m : SkyM Skylink) : SkyM Skylink := fun s =>
  let cleanup (s : List Effect) : List Effect :=
    s ++ [.deleteFile sup.siaPath, .deleteFile (sup.siaPath ++ env.extendedSuffix)]
  match m s with
  | .ok skylink s' => .ok skylink (if sup.dryRun then cleanup s' else s')
  | .error err s' => .error err (cleanup s')

/-- `UploadSkyfile`. -/
def uploadSkyfile (sup : SkyfileUploadParameters) (reader : SkyfileUploadReader) :
    SkyM Skylink := do
  let sup := skyfileEstablishDefaults sup
  let sup ← liftWith (env.generateFilekey sup) "unable to upload skyfile"
  cleanupAfter env sup do
    let skylink ← withContext (managedUploadSkyfile env blocklist sup reader)
      "unable to upload skyfile"
    failIf (isBlocked env blocklist skylink && !sup.dryRun) [errSkylinkBlocked]
    return skylink

/-! ## §6. Downloads, pinning and restoring -/

/-- The context `DownloadByRoot` and `DownloadSkylink` add to a timed-out project. -/
def timeoutContext (timeout : Nat) (err : Error) : Error :=
  if err.contains env.errProjectTimedOut then
    err.addContext ("timed out after " ++ toString timeout ++ "s")
  else err

/-- `DownloadByRoot`. -/
def downloadByRoot (root : Hash) (offset length timeout : Nat) : SkyM Bytes := do
  throwSome env.tgAdd
  failIf (isHashBlocked blocklist (env.hashObject root)) [errSkylinkBlocked]
  emit (.download root)
  match env.managedDownloadByRoot root offset length with
  | .ok data => pure data
  | .error err => throw (timeoutContext env timeout err)

/-- `managedDownloadSkylink`: an open stream of the skylink, else a new data source. -/
def managedDownloadSkylink (link : Skylink) : SkyM (SkyfileLayout × SkyfileMetadata × Bytes) :=
  match env.cachedStream link with
  | some stream => pure stream
  | none => do
    emit (.download link.merkleRoot)
    liftWith (env.skylinkDataSource link) "unable to create data source for skylink"

/-- `DownloadSkylink`. -/
def downloadSkylink (link : Skylink) (timeout : Nat) :
    SkyM (SkyfileLayout × SkyfileMetadata × Bytes) := do
  throwSome env.tgAdd
  failIf (isBlocked env blocklist link) [errSkylinkBlocked]
  mapError (timeoutContext env timeout) (managedDownloadSkylink env link)

/-- `DownloadSkylinkBaseSector`. -/
def downloadSkylinkBaseSector (link : Skylink) : SkyM Bytes := do
  throwSome env.tgAdd
  failIf (isBlocked env blocklist link) [errSkylinkBlocked]
  let (offset, fetchSize) ← liftWith (env.offsetAndFetchSize link)
    "unable to get offset and fetch size"
  emit (.download link.merkleRoot)
  match env.managedDownloadByRoot link.merkleRoot offset fetchSize with
  | .ok baseSector => pure baseSector
  | .error err => throw err

/-- `PinSkylink`. -/
def pinSkylink (skylink : Skylink) (lup : SkyfileUploadParameters) (timeout : Nat) :
    SkyM Unit := do
  failIf (isBlocked env blocklist skylink) [errSkylinkBlocked]
  let baseSector ← withContext
    (downloadByRoot env blocklist skylink.merkleRoot 0 env.sectorSize timeout)
    "unable to fetch base sector of skylink"
  failIf (baseSector.length != env.sectorSize)
    ["download did not fetch enough data, file cannot be re-pinned"]
  let (fileSpecificSkykey, baseSector) ← decryptIfEncrypted env baseSector
  let (layout, _) ← liftWith (env.parseSkyfileMetadata baseSector)
    "error parsing skyfile metadata"
  let lup := skyfileEstablishDefaults lup
  let fup : FileUploadParams :=
    { siaPath := "", dataPieces := 0, parityPieces := 0, force := lup.force,
      disablePartialChunk := true, repair := false, cipherType := .plain, cipherKey := [] }
  let (baseSector, fup, lup) ← (match fileSpecificSkykey with
    | none => pure (baseSector, fup, lup)
    | some fileSpecificSkykey => do
      let baseSector ← liftWith
        (env.encryptBaseSectorWithSkykey baseSector layout (some fileSpecificSkykey))
        "Error re-encrypting base sector"
      let fanoutSkykey ← liftWith (env.deriveSubkey fileSpecificSkykey)
        "Error deriving fanout skykey"
      let cipherKey ← liftWith (env.cipherKey fanoutSkykey) "Error getting fanout CipherKey"
      pure (baseSector, { fup with cipherKey := cipherKey, cipherType := fanoutSkykey.cipherType },
        { lup with skykeyName := fileSpecificSkykey.name,
                   fileSpecificSkykey := some fileSpecificSkykey }))
  withContext (managedUploadBaseSector env lup baseSector skylink) "unable to upload base sector"
  if layout.fanoutSize = 0 then
    return ()
  checkWith (env.newRSSubCode layout.fanoutDataPieces.toNat layout.fanoutParityPieces.toNat)
    "unable to create erasure coder for large file"
  let siaPath ← liftWith (env.newSiaPath (lup.siaPath ++ env.extendedSuffix))
    "unable to create SiaPath for large skyfile extended data"
  let fup := { fup with siaPath := siaPath, dataPieces := layout.fanoutDataPieces.toNat,
                        parityPieces := layout.fanoutParityPieces.toNat }
  emit (.download skylink.merkleRoot)
  let (_, _, stream) ← liftWith (env.skylinkDataSource skylink)
    "unable to create data source for skylink"
  emit (.uploadFile siaPath)
  let fileNode ← liftWith (env.callUploadStreamFromReader fup stream)
    "unable to upload large skyfile"
  checkWith (env.addSkylink fileNode skylink) "unable to upload skyfile fanout"

/-- `RestoreSkyfile`. -/
def restoreSkyfile (reader : Bytes) : SkyM Skylink := do
  let (skylinkStr, baseSector, rest) ← liftWith (env.restoreSkylink reader)
    "unable to restore skyfile from backup"
  let skylink ← liftWith (env.loadString skylinkStr) "unable to load skylink"
  failIf (isBlocked env blocklist skylink) [errSkylinkBlocked]
  let (fileSpecificSkykey, baseSector) ← decryptIfEncrypted env baseSector
  let (sl, sm) ← liftWith (env.parseSkyfileMetadata baseSector) "error parsing the baseSector"
  let siaPath ← liftWith (env.skynetFolderJoin skylinkStr) "unable to create siapath"
  let sup := skyfileEstablishDefaults
    { siaPath := siaPath, dryRun := false, force := false,
      baseChunkRedundancy := sl.fanoutDataPieces + sl.fanoutParityPieces,
      filename := sm.filename, mode := sm.mode, defaultPath := sm.defaultPath,
      disableDefaultPath := sm.disableDefaultPath, skykeyName := "", skykeyID := [],
      fileSpecificSkykey := none }
  let (baseSector, sup) ← (match fileSpecificSkykey with
    | none => pure (baseSector, sup)
    | some fileSpecificSkykey => do
      let baseSector ← liftWith
        (env.encryptBaseSectorWithSkykey baseSector sl (some fileSpecificSkykey))
        "error re-encrypting base sector"
      pure (baseSector, { sup with skykeyName := fileSpecificSkykey.name,
                                   fileSpecificSkykey := some fileSpecificSkykey }))
  (if sm.subfiles ≠ [] then do
      checkWith (env.newMultipartReader rest sm.subfiles) "unable to create multireader"
      checkWith (env.newMultipartReader rest sm.subfiles) "unable to create multireader"
    else pure ())
  withContext (managedUploadBaseSector env sup baseSector skylink) "failed to upload base sector"
  if sl.fanoutSize = 0 then
    return skylink
  let extendedPath ← liftWith (env.newSiaPath (sup.siaPath ++ env.extendedSuffix))
    "unable to create extended siapath"
  let fup ← liftWith (fileUploadParams env extendedPath sl.fanoutDataPieces.toNat
    sl.fanoutParityPieces.toNat sup.force sl.cipherType)
    "unable to create FileUploadParams for large file"
  let fup ← (if sl.cipherType = .threefish then do
      let cipherKey ← liftWith (env.newSiaKey sl.cipherType sl.keyData)
        "unable to create Cipher key from SkyfileLayout KeyData"
      pure { fup with cipherKey := cipherKey }
    else
      liftWith (env.generateCipherKey fup sup) "unable to create Cipher key for FileUploadParams")
  emit (.uploadFile fup.siaPath)
  let fileNode ← liftWith (env.callUploadStreamFromReader fup rest)
    "unable to upload large skyfile"
  refuseIf env (isFileNodeBlocked env blocklist fileNode) sup.siaPath
  match env.addSkylink fileNode skylink with
  | none => return skylink
  | some err =>
    emit (.deleteFile sup.siaPath)
    throw (err.addContext "unable to add skylink to the sianodes" ++
      (env.deleteFile sup.siaPath).getD [])

end FormalSia.Renter
