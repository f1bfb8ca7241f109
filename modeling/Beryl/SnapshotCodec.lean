import Beryl.ByteReader
import Beryl.Types

/-!
# The snapshot frame

`SnapshotWriter` and `decode_snapshot`: the strict framing of the replicated column
families.  The bytes a writer has put out and the bytes its hasher has consumed are
kept side by side; the digest is a parameter.  The reader remembers every byte it has
taken and hashes them when it comes to the checksum.  Reading and writing themselves
do not fail here.
-/

namespace Beryl

open Transaction ByteReader

def snapshotMagic : ByteString := .ofString "BRYL"
def snapshotFormatVersion : ℕ := 1
def rocksdbSchemaVersion : ℕ := 4

def tagCfStart : ℕ := 1
def tagKv : ℕ := 2
def tagCfEnd : ℕ := 3
def tagTrailer : ℕ := 4
def tagEnd : ℕ := 255

def maxGroupNameBytes : ℕ := 256
def maxCfNameBytes : ℕ := 64
def maxKeyBytes : ℕ := 1024 * 1024
def maxValueBytes : ℕ := 64 * 1024 * 1024
def maxRecordBytes : ℕ := 64 * 1024 * 1024
def maxRecordsPerCf : ℕ := 10000000
def maxTotalRecords : ℕ := 100000000
def maxTotalUncompressedBytes : ℕ := 64 * 1024 * 1024 * 1024

def cfMounts : String := "mounts"
def cfWorkers : String := "workers"
def cfMeta : String := "meta"
def cfInodes : String := "inodes"
def cfDentries : String := "dentries"
def cfDetachedRoots : String := "detached_roots"

def stateCfs : List String :=
  [cfMounts, cfWorkers, cfMeta, cfInodes, cfDentries, cfDetachedRoots]

def reservedMetaKeys : List ByteString :=
  [.ofString "rocksdb_schema_version", .ofString "storage_identity"]

abbrev Digest := { bytes : ByteString // bytes.length = 32 }

structure SnapshotIdentity where
  storageSchemaVersion : ℕ
  groupName : GroupName
  lastAppliedLogId : Option LogId
deriving DecidableEq

def SnapshotIdentity.current (groupName : GroupName) (lastAppliedLogId : Option LogId) :
    SnapshotIdentity := ⟨rocksdbSchemaVersion, groupName, lastAppliedLogId⟩

structure SnapshotMeta where
  lastLogId : Option LogId
  lastMembership : StoredMembership
  snapshotId : String
deriving DecidableEq

structure SnapshotSummary where
  totalRecords : ℕ
  totalUncompressedBytes : ℕ
deriving DecidableEq, Repr

inductive SnapshotCodecError
  | io (message : String)
  | invalid (message : String)
deriving DecidableEq, Repr

def hexByte (value : ℕ) : String :=
  let digits := String.ofList (Nat.toDigits 16 value)
  if value < 16 then s!"0x0{digits}" else s!"0x{digits}"

def debugStr (text : String) : String :=
  "\"" ++ String.ofList (text.toList.flatMap fun c =>
    if c = '"' ∨ c = '\\' then ['\\', c] else [c]) ++ "\""

def debugLogId : Option LogId → String
  | none => "None"
  | some logId => "Some(RaftLogId \x7b " ++
      s!"term: {logId.term}, leader_node_id: {logId.nodeId}, index: {logId.index}" ++ " \x7d)"

def GroupNameError.display : GroupNameError → String
  | .empty => "must not be empty"
  | .tooLong => "must be at most 63 characters"
  | .invalidStart => "must start with lowercase ASCII letter or digit"
  | .invalidCharacter =>
    "must contain only lowercase ASCII letters, digits, '.', '_' or '-'"

def isWhitespace (c : Char) : Bool :=
  (9 ≤ c.toNat && c.toNat ≤ 13) || (8192 ≤ c.toNat && c.toNat ≤ 8202) ||
    [32, 133, 160, 5760, 8232, 8233, 8239, 8287, 12288].contains c.toNat

def trim (text : String) : String :=
  .ofList ((text.toList.dropWhile isWhitespace).reverse.dropWhile isWhitespace).reverse

def GroupName.parse (raw : String) : Except GroupNameError GroupName :=
  match h : checkGroupName (trim raw) with
  | .ok () => .ok ⟨trim raw, h⟩
  | .error error => .error error

def checkedTotal (current added maximum : ℕ) (label : String) :
    Except SnapshotCodecError ℕ :=
  match checkedAddU64 current added with
  | none => .error (.invalid s!"{label} overflow")
  | some next =>
    if next > maximum then .error (.invalid s!"{label} exceeds limit {maximum}")
    else .ok next

def isNodeLocalMetaKey (cfName : String) (key : ByteString) : Prop :=
  cfName = cfMeta ∧ key ∈ reservedMetaKeys

instance (cfName : String) (key : ByteString) : Decidable (isNodeLocalMetaKey cfName key) :=
  inferInstanceAs (Decidable (_ ∧ _))

def validateRecordKey (cfName : String) (key : ByteString) :
    Except SnapshotCodecError Unit :=
  if isNodeLocalMetaKey cfName key then
    .error (.invalid ("node-local meta key " ++ debugStr ((key.toText).getD "") ++
      " is forbidden in replicated snapshots"))
  else .ok ()

def missingCfs (seen : List String) : List String := stateCfs.filter fun name => name ∉ seen

structure SnapshotWriter where
  writer : ByteString
  hasher : ByteString
  seen : List String
  activeCf : Option (String × ℕ)
  totalRecords : ℕ
  totalBytes : ℕ
deriving DecidableEq

abbrev WriterM := Transaction SnapshotWriter SnapshotCodecError

namespace SnapshotWriter

def writeHashed (bytes : ByteString) : WriterM Unit :=
  update fun w => { w with writer := w.writer ++ bytes, hasher := w.hasher ++ bytes }

def encodeLastApplied : Option LogId → ByteString
  | none => .ofNat 1 0
  | some logId => .ofNat 1 1 ++ .ofNat 8 logId.term ++ .ofNat 8 logId.nodeId ++
      .ofNat 8 logId.index

def new (identity : SnapshotIdentity) : Except SnapshotCodecError SnapshotWriter :=
  let group := ByteString.ofString identity.groupName.asStr
  if group.length > maxGroupNameBytes then
    .error (.invalid
      s!"group name length {group.length} exceeds limit {maxGroupNameBytes}")
  else if identity.storageSchemaVersion ≠ rocksdbSchemaVersion then
    .error (.invalid
      s!"storage schema mismatch: writer={identity.storageSchemaVersion}, runtime={rocksdbSchemaVersion}")
  else
    let header := snapshotMagic ++ .ofNat 2 snapshotFormatVersion ++
      .ofNat 8 identity.storageSchemaVersion ++ .ofNat 2 group.length ++ group ++
      encodeLastApplied identity.lastAppliedLogId ++ .ofNat 2 stateCfs.length
    .ok ⟨header, header, [], none, 0, 0⟩

def startColumnFamily (name : String) : WriterM Unit := do
  let w ← current
  failIf (w.activeCf.isSome = true)
    (.invalid "cannot start a column family before ending the current one")
  failIf (name ∉ stateCfs) (.invalid s!"unknown column family {debugStr name}")
  failIf (name.utf8ByteSize > maxCfNameBytes) (.invalid
    s!"column-family name length {name.utf8ByteSize} exceeds limit {maxCfNameBytes}")
  failIf (name ∈ w.seen) (.invalid s!"duplicate column family {debugStr name}")
  update fun w => { w with seen := w.seen ++ [name] }
  writeHashed (.ofNat 1 tagCfStart)
  writeHashed (.ofNat 2 name.utf8ByteSize)
  writeHashed (.ofString name)
  update fun w => { w with activeCf := some (name, 0) }

def writeRecord (key value : ByteString) : WriterM Unit := do
  let w ← current
  let (cfName, currentCfRecords) ← okOr w.activeCf
    (.invalid "cannot write a record outside a column family")
  failIf (key.length > maxKeyBytes)
    (.invalid s!"key length {key.length} exceeds limit {maxKeyBytes}")
  failIf (value.length > maxValueBytes)
    (.invalid s!"value length {value.length} exceeds limit {maxValueBytes}")
  lift (validateRecordKey cfName key)
  let recordBytes ← okOr (checkedAddU64 key.length value.length)
    (.invalid "record byte count overflow")
  failIf (recordBytes > maxRecordBytes)
    (.invalid s!"record byte count {recordBytes} exceeds limit {maxRecordBytes}")
  let nextCfRecords ← lift (checkedTotal currentCfRecords 1 maxRecordsPerCf
    "column-family record count")
  let totalRecords ← lift (checkedTotal w.totalRecords 1 maxTotalRecords
    "total record count")
  update fun w => { w with totalRecords }
  let totalBytes ← lift (checkedTotal w.totalBytes recordBytes maxTotalUncompressedBytes
    "total uncompressed byte count")
  update fun w => { w with totalBytes, activeCf := some (cfName, nextCfRecords) }
  writeHashed (.ofNat 1 tagKv)
  writeHashed (.ofNat 4 key.length)
  writeHashed (.ofNat 4 value.length)
  writeHashed key
  writeHashed value

def endColumnFamily : WriterM Unit := do
  let w ← current
  let (_, records) ← okOr w.activeCf
    (.invalid "cannot end a column family when none is active")
  update fun w => { w with activeCf := none }
  writeHashed (.ofNat 1 tagCfEnd)
  writeHashed (.ofNat 8 records)

def finish (sha256 : ByteString → Digest) : WriterM ByteString := do
  let w ← current
  failIf (w.activeCf.isSome = true)
    (.invalid "cannot finish snapshot with an active column family")
  failIf (missingCfs w.seen ≠ []) (.invalid
    ("missing column families: " ++ ", ".intercalate (missingCfs w.seen)))
  writeHashed (.ofNat 1 tagTrailer)
  writeHashed (.ofNat 8 w.totalRecords)
  writeHashed (.ofNat 8 w.totalBytes)
  let w ← current
  pure (w.writer ++ (sha256 w.hasher).1 ++ .ofNat 1 tagEnd)

end SnapshotWriter

section Decoder

variable {σ : Type}

abbrev DecodeM (σ : Type) := Transaction (ByteReader σ) SnapshotCodecError

def prematureEof : SnapshotCodecError :=
  .invalid "premature EOF before snapshot END marker"

def readHashed (count : ℕ) : DecodeM σ ByteString := take prematureEof count
def readU8 : DecodeM σ ℕ := takeNat prematureEof 1
def readU16 : DecodeM σ ℕ := takeNat prematureEof 2
def readU32 : DecodeM σ ℕ := takeNat prematureEof 4
def readU64 : DecodeM σ ℕ := takeNat prematureEof 8

def readBoundedBytes (length maximum : ℕ) (label : String) : DecodeM σ ByteString := do
  failIf (length > maximum)
    (.invalid s!"{label} length {length} exceeds limit {maximum}")
  readHashed length

structure DecodeTotals where
  cfRecords : ℕ
  totalRecords : ℕ
  totalBytes : ℕ
deriving DecidableEq, Repr

variable (onRecord : String → ByteString → ByteString → σ → Except SnapshotCodecError σ)

def decodeRecord (name : String) (totals : DecodeTotals) : DecodeM σ DecodeTotals := do
  let keyLength ← readU32
  let valueLength ← readU32
  failIf (keyLength > maxKeyBytes)
    (.invalid s!"key length {keyLength} exceeds limit {maxKeyBytes}")
  failIf (valueLength > maxValueBytes)
    (.invalid s!"value length {valueLength} exceeds limit {maxValueBytes}")
  let recordBytes ← okOr (checkedAddU64 keyLength valueLength)
    (.invalid "record byte count overflow")
  failIf (recordBytes > maxRecordBytes)
    (.invalid s!"record byte count {recordBytes} exceeds limit {maxRecordBytes}")
  let cfRecords ← lift (checkedTotal totals.cfRecords 1 maxRecordsPerCf
    "column-family record count")
  let totalRecords ← lift (checkedTotal totals.totalRecords 1 maxTotalRecords
    "total record count")
  let totalBytes ← lift (checkedTotal totals.totalBytes recordBytes
    maxTotalUncompressedBytes "total uncompressed byte count")
  let key ← readBoundedBytes keyLength maxKeyBytes "key"
  let value ← readBoundedBytes valueLength maxValueBytes "value"
  lift (validateRecordKey name key)
  hand (onRecord name key value)
  pure ⟨cfRecords, totalRecords, totalBytes⟩

def decodeFamilyEnd (name : String) (totals : DecodeTotals) : DecodeM σ DecodeTotals := do
  let declaredRecords ← readU64
  failIf (declaredRecords > maxRecordsPerCf) (.invalid
    s!"column-family record count {declaredRecords} exceeds limit {maxRecordsPerCf}")
  failIf (declaredRecords ≠ totals.cfRecords) (.invalid
    s!"column-family record count mismatch for {debugStr name}: declared={declaredRecords}, actual={totals.cfRecords}")
  pure totals

/-- The loop over the records of one column family.  Every turn reads a tag, so with
no turn left there is no byte left. -/
def decodeRecords (name : String) : ℕ → DecodeTotals → DecodeM σ DecodeTotals
  | 0, _ => fail prematureEof
  | turns + 1, totals => do
      let tag ← readU8
      if tag = tagKv then do
        let totals ← decodeRecord onRecord name totals
        decodeRecords name turns totals
      else if tag = tagCfEnd then decodeFamilyEnd name totals
      else fail (.invalid s!"unknown snapshot tag {hexByte tag} inside column family")

def decodeFamily (seen : List String) (totals : DecodeTotals) :
    DecodeM σ (String × DecodeTotals) := do
  let nameLength ← readU16
  let nameBytes ← readBoundedBytes nameLength maxCfNameBytes "column-family name"
  let name ← okOr nameBytes.toText (.invalid "column-family name is not UTF-8")
  failIf (name ∉ stateCfs) (.invalid s!"unknown column family {debugStr name}")
  failIf (name ∈ seen) (.invalid s!"duplicate column family {debugStr name}")
  let totals ← looping fun turns =>
    decodeRecords onRecord name turns { totals with cfRecords := 0 }
  pure (name, totals)

def decodeFamilies : ℕ → List String → DecodeTotals → DecodeM σ (List String × DecodeTotals)
  | 0, _, _ => fail prematureEof
  | turns + 1, seen, totals => do
      let tag ← readU8
      if tag = tagTrailer then pure (seen, totals)
      else do
        failIf (tag ≠ tagCfStart) (.invalid
          s!"unknown snapshot tag {hexByte tag} outside column family")
        let (name, totals) ← decodeFamily onRecord seen totals
        decodeFamilies turns (seen ++ [name]) totals

def decodeLastApplied : DecodeM σ (Option LogId) := do
  let presence ← readU8
  if presence = 0 then pure none
  else if presence = 1 then do
    let term ← readU64
    let nodeId ← readU64
    let index ← readU64
    pure (some ⟨term, nodeId, index⟩)
  else fail (.invalid s!"invalid last applied presence tag {presence}")

/-- The header, compared with the identity that the caller expects. -/
def decodeHeader (expected : SnapshotIdentity) : DecodeM σ Unit := do
  let magic ← readHashed snapshotMagic.length
  failIf (magic ≠ snapshotMagic) (.invalid "magic mismatch")
  let version ← readU16
  failIf (version ≠ snapshotFormatVersion) (.invalid
    s!"unsupported snapshot format version {version}; expected {snapshotFormatVersion}")
  let schema ← readU64
  failIf (schema ≠ rocksdbSchemaVersion ∨ schema ≠ expected.storageSchemaVersion) (.invalid
    s!"storage schema mismatch: snapshot={schema}, runtime={rocksdbSchemaVersion}, expected={expected.storageSchemaVersion}")
  let groupLength ← readU16
  let groupBytes ← readBoundedBytes groupLength maxGroupNameBytes "group name"
  let groupRaw ← okOr groupBytes.toText (.invalid "group name is not UTF-8")
  let groupName ← lift ((GroupName.parse groupRaw).mapError fun error =>
    SnapshotCodecError.invalid s!"invalid group name: {error.display}")
  failIf (groupName ≠ expected.groupName) (.invalid
    s!"group identity mismatch: snapshot={groupName.asStr}, expected={expected.groupName.asStr}")
  let lastAppliedLogId ← decodeLastApplied
  failIf (lastAppliedLogId ≠ expected.lastAppliedLogId) (.invalid
    s!"last applied log id mismatch: snapshot={debugLogId lastAppliedLogId}, expected={debugLogId expected.lastAppliedLogId}")
  let cfCount ← readU16
  failIf (cfCount ≠ stateCfs.length) (.invalid
    s!"column-family count mismatch: snapshot={cfCount}, expected={stateCfs.length}")

def decodeTotals (totals : DecodeTotals) : DecodeM σ Unit := do
  let declaredRecords ← readU64
  failIf (declaredRecords > maxTotalRecords) (.invalid
    s!"total record count {declaredRecords} exceeds limit {maxTotalRecords}")
  failIf (declaredRecords ≠ totals.totalRecords) (.invalid
    s!"total record count mismatch: declared={declaredRecords}, actual={totals.totalRecords}")
  let declaredBytes ← readU64
  failIf (declaredBytes > maxTotalUncompressedBytes) (.invalid
    s!"total uncompressed byte count {declaredBytes} exceeds limit {maxTotalUncompressedBytes}")
  failIf (declaredBytes ≠ totals.totalBytes) (.invalid
    s!"total uncompressed byte count mismatch: declared={declaredBytes}, actual={totals.totalBytes}")

def decodeBody (expected : SnapshotIdentity) : DecodeM σ SnapshotSummary := do
  decodeHeader expected
  let (seen, totals) ← looping fun turns => decodeFamilies onRecord turns [] ⟨0, 0, 0⟩
  failIf (missingCfs seen ≠ []) (.invalid
    ("missing column families: " ++ ", ".intercalate (missingCfs seen)))
  decodeTotals totals
  pure ⟨totals.totalRecords, totals.totalBytes⟩

def decodeChecksum (calculatedChecksum : Digest) : DecodeM σ Unit := do
  let storedChecksum ← readHashed 32
  failIf (calculatedChecksum.1 ≠ storedChecksum) (.invalid "checksum mismatch")
  let endTag ← readU8
  failIf (endTag ≠ tagEnd)
    (.invalid s!"missing explicit END marker; got {hexByte endTag}")

variable (sha256 : ByteString → Digest)

def decodeSnapshot (expected : SnapshotIdentity) : DecodeM σ SnapshotSummary := do
  let summary ← decodeBody onRecord expected
  let reader ← current
  decodeChecksum (sha256 reader.taken)
  let reader ← current
  failIf (reader.inner ≠ []) (.invalid "trailing bytes after snapshot END marker")
  pure summary

end Decoder

end Beryl
