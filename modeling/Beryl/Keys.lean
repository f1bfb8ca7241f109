import Beryl.ByteString
import Beryl.Storage

/-!
# Keys of the `meta` column family

The replay records, their two indexes and the scalar keys share one column family.
The encodings keep them apart, and a scan from the expiry prefix in byte order
meets the index entry that the ordered table of expiry keys has first.
-/

namespace Beryl

open ByteString CreateFileOperationId OrderedTable List

def createFileReplayPrefix : ByteString := .ofString "create_file_replay/"
def createFileReplayExpiryPrefix : ByteString := .ofString "create_file_replay_expiry/"
def createFileReplayInodePrefix : ByteString := .ofString "create_file_replay_inode/"

def encodeCreateFileOperationBytes (operationId : CreateFileOperationId) : ByteString :=
  .ofNat 16 operationId.clientId ++ .ofNat 16 operationId.callId

def decodeCreateFileOperationBytes (bytes : ByteString) :
    MetadataResult CreateFileOperationId :=
  if bytes.length ≠ 32 then
    .error (.internal "invalid CreateFile operation identity length")
  else .ok ⟨ByteString.toNat (bytes.take 16), ByteString.toNat (bytes.drop 16)⟩

def encodeCreateFileReplayKey (operationId : CreateFileOperationId) : ByteString :=
  createFileReplayPrefix ++ encodeCreateFileOperationBytes operationId

def encodeCreateFileReplayInodeKey (inodeId : InodeId) : ByteString :=
  createFileReplayInodePrefix ++ .ofNat 8 inodeId

def encodeCreateFileReplayExpiryKey (expiresAtMs : ℕ)
    (operationId : CreateFileOperationId) : ByteString :=
  createFileReplayExpiryPrefix ++ (.ofNat 8 expiresAtMs ++
    encodeCreateFileOperationBytes operationId)

def decodeCreateFileReplayExpiryKey (key : ByteString) :
    MetadataResult (ℕ × CreateFileOperationId) :=
  if key.length ≠ createFileReplayExpiryPrefix.length + 8 + 32 ∨
      ¬createFileReplayExpiryPrefix <+: key then
    .error (.internal "invalid CreateFile replay expiry key")
  else do
    let payload := key.drop createFileReplayExpiryPrefix.length
    let operationId ← decodeCreateFileOperationBytes (payload.drop 8)
    .ok (ByteString.toNat (payload.take 8), operationId)

/-- The identity fits the 128-bit client and call ids of the source. -/
structure CreateFileOperationId.InRange (operationId : CreateFileOperationId) : Prop where
  clientId_lt : operationId.clientId < 256 ^ 16
  callId_lt : operationId.callId < 256 ^ 16

section Encoding

variable {operationId operationId' : CreateFileOperationId} {expires expires' : ℕ}

@[simp] theorem length_encodeCreateFileOperationBytes :
    (encodeCreateFileOperationBytes operationId).length = 32 := by
  simp [encodeCreateFileOperationBytes]

theorem decode_encodeCreateFileOperationBytes (h : operationId.InRange) :
    decodeCreateFileOperationBytes (encodeCreateFileOperationBytes operationId) =
      .ok operationId := by
  unfold decodeCreateFileOperationBytes
  rw [if_neg (by simp)]
  have htake : (encodeCreateFileOperationBytes operationId).take 16 =
      ofNat 16 operationId.clientId := by
    simp [encodeCreateFileOperationBytes]
  have hdrop : (encodeCreateFileOperationBytes operationId).drop 16 =
      ofNat 16 operationId.callId := by
    simp [encodeCreateFileOperationBytes]
  rw [htake, hdrop, toNat_ofNat h.clientId_lt, toNat_ofNat h.callId_lt]

theorem decode_encodeCreateFileReplayExpiryKey (h : operationId.InRange)
    (hexpires : expires < 256 ^ 8) :
    decodeCreateFileReplayExpiryKey (encodeCreateFileReplayExpiryKey expires operationId) =
      .ok (expires, operationId) := by
  unfold decodeCreateFileReplayExpiryKey
  rw [if_neg (by simp [encodeCreateFileReplayExpiryKey])]
  have hpayload : (encodeCreateFileReplayExpiryKey expires operationId).drop
      createFileReplayExpiryPrefix.length =
      ofNat 8 expires ++ encodeCreateFileOperationBytes operationId := by
    simp [encodeCreateFileReplayExpiryKey]
  simp only [hpayload]
  rw [drop_left' (by simp), take_left' (by simp),
    decode_encodeCreateFileOperationBytes h, toNat_ofNat hexpires]
  rfl

theorem encodeCreateFileOperationBytes_lt (h : operationId.InRange) (h' : operationId'.InRange) :
    encodeCreateFileOperationBytes operationId <
      encodeCreateFileOperationBytes operationId' ↔ operationId.key < operationId'.key := by
  unfold encodeCreateFileOperationBytes key
  rw [append_lt_append_iff (by simp),
    ofNat_lt_ofNat h.clientId_lt h'.clientId_lt,
    ofNat_inj h.clientId_lt h'.clientId_lt,
    ofNat_lt_ofNat h.callId_lt h'.callId_lt, Prod.Lex.toLex_lt_toLex]

theorem encodeCreateFileReplayExpiryKey_lt (h : operationId.InRange)
    (h' : operationId'.InRange) (hexpires : expires < 256 ^ 8) (hexpires' : expires' < 256 ^ 8) :
    encodeCreateFileReplayExpiryKey expires operationId <
      encodeCreateFileReplayExpiryKey expires' operationId' ↔
      expiryKey expires operationId < expiryKey expires' operationId' := by
  unfold encodeCreateFileReplayExpiryKey expiryKey
  rw [append_lt_append_left, append_lt_append_iff (by simp),
    ofNat_lt_ofNat hexpires hexpires', ofNat_inj hexpires hexpires',
    encodeCreateFileOperationBytes_lt h h', Prod.Lex.toLex_lt_toLex]

end Encoding

inductive MetaKey
  | schemaVersion
  | storageIdentity
  | routeEpoch
  | mountEpoch
  | nextInodeId
  | replayCount
  | replay (operationId : CreateFileOperationId)
  | replayInode (inodeId : InodeId)
  | replayExpiry (expiresAtMs : ℕ) (operationId : CreateFileOperationId)
deriving DecidableEq

def MetaKey.encode : MetaKey → ByteString
  | schemaVersion => .ofString "rocksdb_schema_version"
  | storageIdentity => .ofString "storage_identity"
  | routeEpoch => .ofString "route_epoch"
  | mountEpoch => .ofString "mount_epoch"
  | nextInodeId => .ofString "next_inode_id"
  | replayCount => .ofString "create_file_replay_count"
  | replay operationId => encodeCreateFileReplayKey operationId
  | replayInode inodeId => encodeCreateFileReplayInodeKey inodeId
  | replayExpiry expiresAtMs operationId =>
    encodeCreateFileReplayExpiryKey expiresAtMs operationId

theorem MetaKey.begins_expiry {key : MetaKey} (h : createFileReplayExpiryPrefix <+: key.encode) :
    ∃ expiresAtMs operationId, key = .replayExpiry expiresAtMs operationId := by
  have htake : ∀ n ≤ 26, key.encode.take n = createFileReplayExpiryPrefix.take n := by
    intro n hn
    obtain ⟨rest, hrest⟩ := h
    have hlength : n ≤ createFileReplayExpiryPrefix.length := hn
    rw [← hrest, take_append_of_le_length hlength]
  cases key with
  | replayExpiry => exact ⟨_, _, rfl⟩
  | replay =>
    have hslash := htake 19 (by decide)
    rw [encode, encodeCreateFileReplayKey, take_append_of_le_length (by decide)]
      at hslash
    exact absurd hslash (by decide)
  | replayInode =>
    have hletter := htake 20 (by decide)
    rw [encode, encodeCreateFileReplayInodeKey, take_append_of_le_length (by decide)] at hletter
    exact absurd hletter (by decide)
  | _ => exact absurd (htake 20 (by decide)) (by decide)

def MetaKey.InRange : MetaKey → Prop
  | replay operationId => operationId.InRange
  | replayInode inodeId => inodeId < 256 ^ 8
  | replayExpiry expiresAtMs operationId => expiresAtMs < 256 ^ 8 ∧ operationId.InRange
  | _ => True

def MetaKey.encodedLen : MetaKey → ℕ
  | schemaVersion => 22
  | storageIdentity => 16
  | routeEpoch => 11
  | mountEpoch => 11
  | nextInodeId => 13
  | replayCount => 24
  | replay _ => 51
  | replayInode _ => 33
  | replayExpiry _ _ => 66

theorem MetaKey.length_encode (key : MetaKey) : key.encode.length = key.encodedLen := by
  cases key with
  | replay =>
    simp only [encode, encodeCreateFileReplayKey, length_append,
      length_encodeCreateFileOperationBytes]
    rfl
  | replayInode =>
    simp only [encode, encodeCreateFileReplayInodeKey, length_append, length_ofNat]
    rfl
  | replayExpiry =>
    simp only [encode, encodeCreateFileReplayExpiryKey, length_append, length_ofNat,
      length_encodeCreateFileOperationBytes]
    rfl
  | _ => rfl

theorem encodeCreateFileOperationBytes_inj {operationId operationId' : CreateFileOperationId}
    (h : operationId.InRange) (h' : operationId'.InRange)
    (heq : encodeCreateFileOperationBytes operationId =
      encodeCreateFileOperationBytes operationId') : operationId = operationId' := by
  have hdecode := decode_encodeCreateFileOperationBytes h
  rw [heq, decode_encodeCreateFileOperationBytes h'] at hdecode
  cases hdecode
  rfl

theorem MetaKey.encode_inj {key key' : MetaKey} (h : key.InRange) (h' : key'.InRange)
    (heq : key.encode = key'.encode) : key = key' := by
  have hlength := congrArg length heq
  rw [length_encode, length_encode] at hlength
  cases key with
  | routeEpoch =>
    cases key' with
    | routeEpoch => rfl
    | mountEpoch => exact absurd heq (by decide)
    | _ => simp [encodedLen] at hlength
  | mountEpoch =>
    cases key' with
    | mountEpoch => rfl
    | routeEpoch => exact absurd heq (by decide)
    | _ => simp [encodedLen] at hlength
  | replay =>
    cases key' with
    | replay =>
      rw [encodeCreateFileOperationBytes_inj h h' (append_cancel_left heq)]
    | _ => simp [encodedLen] at hlength
  | replayInode inodeId =>
    cases key' with
    | replayInode inodeId' =>
      have h : inodeId < 256 ^ 8 := h
      have h' : inodeId' < 256 ^ 8 := h'
      have hbytes : ofNat 8 inodeId = ofNat 8 inodeId' := append_cancel_left heq
      rw [(ofNat_inj h h').1 hbytes]
    | _ => simp [encodedLen] at hlength
  | replayExpiry expiresAtMs operationId =>
    cases key' with
    | replayExpiry expiresAtMs' operationId' =>
      have heq : encodeCreateFileReplayExpiryKey expiresAtMs operationId =
        encodeCreateFileReplayExpiryKey expiresAtMs' operationId' := heq
      have hdecode := decode_encodeCreateFileReplayExpiryKey h.2 h.1
      rw [heq, decode_encodeCreateFileReplayExpiryKey h'.2 h'.1] at hdecode
      cases hdecode
      rfl
    | _ => simp [encodedLen] at hlength
  | _ => cases key' <;> first | rfl | simp [encodedLen] at hlength

theorem encode_inj_replayInode : ∃ key key' : MetaKey, key.InRange ∧ key'.InRange ∧
    key.encode = key'.encode ∧ key = key' :=
  have h : (MetaKey.replayInode 2).InRange := show 2 < 256 ^ 8 by decide
  ⟨_, _, h, h, rfl, MetaKey.encode_inj h h rfl⟩

def MetaKey.ofExpiryKey (key : ExpiryKey) : MetaKey :=
  .replayExpiry (ofLex key).1 (CreateFileOperationId.ofKey (ofLex key).2)

/-- The keys that a store holds in the `meta` family, beside those of its node. -/
def Store.metaKeys (s : Store) : List MetaKey :=
  [MetaKey.schemaVersion, MetaKey.storageIdentity] ++
    s.routeEpoch.toList.map (fun _ => MetaKey.routeEpoch) ++
    s.mountEpoch.toList.map (fun _ => MetaKey.mountEpoch) ++
    s.nextInodeId.toList.map (fun _ => MetaKey.nextInodeId) ++
    s.createFileReplayCount.toList.map (fun _ => MetaKey.replayCount) ++
    s.createFileReplay.entries.map
      (fun entry => MetaKey.replay (CreateFileOperationId.ofKey entry.1)) ++
    s.createFileReplayInode.entries.map (fun entry => MetaKey.replayInode entry.1) ++
    s.createFileReplayExpiry.entries.map (fun entry => MetaKey.ofExpiryKey entry.1)

theorem Store.ofExpiryKey_mem {s : Store} {key : ExpiryKey} :
    MetaKey.ofExpiryKey key ∈ s.metaKeys ↔ s.createFileReplayExpiry.get key = some () := by
  rw [← OrderedTable.mem_entries_iff]
  have hkey : ∀ key' : ExpiryKey, MetaKey.ofExpiryKey key' = .ofExpiryKey key ↔ key' = key := by
    intro key'
    simp only [MetaKey.ofExpiryKey, MetaKey.replayExpiry.injEq, CreateFileOperationId.ofKey,
      CreateFileOperationId.mk.injEq]
    constructor
    · rintro ⟨hexpires, hclient, hcall⟩
      exact ofLex.injective (Prod.ext hexpires (ofLex.injective (Prod.ext hclient hcall)))
    · rintro rfl
      exact ⟨rfl, rfl, rfl⟩
  simp only [metaKeys, List.mem_append, List.mem_map, hkey]
  simp only [MetaKey.ofExpiryKey, List.mem_cons, reduceCtorEq, List.not_mem_nil, or_self, and_false,
    exists_false, false_or, Prod.exists]
  constructor
  · rintro ⟨_, _, hmem, rfl⟩
    exact hmem
  · exact fun hmem => ⟨key, (), hmem, rfl⟩

theorem Store.seek_expiry {s : Store} (hrange : ∀ key ∈ s.metaKeys, key.InRange)
    {found : Option ByteString}
    (h : ByteString.Seeks (s.metaKeys.map MetaKey.encode) createFileReplayExpiryPrefix found) :
    match s.createFileReplayExpiry.entries.head? with
    | some (key, _) => found = some (MetaKey.ofExpiryKey key).encode
    | none => ∀ bytes, found = some bytes → ¬createFileReplayExpiryPrefix <+: bytes := by
  cases hentries : s.createFileReplayExpiry.entries with
  | nil =>
    simp only [head?_nil]
    rintro bytes rfl hbegins
    obtain ⟨key, hkey, rfl⟩ := mem_map.1 h.1
    obtain ⟨expiresAtMs, operationId, rfl⟩ := MetaKey.begins_expiry hbegins
    have hget := Store.ofExpiryKey_mem.1
      (show MetaKey.ofExpiryKey (expiryKey expiresAtMs operationId) ∈ _ from hkey)
    rw [← mem_entries_iff, hentries] at hget
    cases hget
  | cons first =>
    obtain ⟨key, value⟩ := first
    simp only [head?_cons]
    have hget : s.createFileReplayExpiry.get key = some () :=
      s.createFileReplayExpiry.mem_entries_iff.1 (hentries ▸ mem_cons_self)
    have hfirst := Store.ofExpiryKey_mem.2 hget
    refine h.eq_least (mem_map_of_mem hfirst) (prefix_append _ _) ?_
    intro bytes hbytes hbegins
    obtain ⟨key', hkey', rfl⟩ := mem_map.1 hbytes
    obtain ⟨expiresAtMs, operationId, rfl⟩ := MetaKey.begins_expiry hbegins
    have hget' := Store.ofExpiryKey_mem.1
      (show MetaKey.ofExpiryKey (expiryKey expiresAtMs operationId) ∈ _ from hkey')
    have hhead : s.createFileReplayExpiry.entries.head? = some (key, value) := by
      rw [hentries]
      rfl
    have hle := head_le hhead hget'
    obtain ⟨hexpires, hoperation⟩ := hrange _ hfirst
    obtain ⟨hexpires', hoperation'⟩ := hrange _ hkey'
    refine not_lt.1 fun hlt => absurd hle (not_le.2 ?_)
    exact (encodeCreateFileReplayExpiryKey_lt hoperation' hoperation hexpires' hexpires).1 hlt

end Beryl
