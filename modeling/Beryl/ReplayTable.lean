import Beryl.Storage

/-!
# The table of replay records

A record of a created file is kept under the operation that created it and found
again through two indexes: the inode it created, and the time at which it expires.
Records enter and leave all three tables together.
-/

namespace Beryl

open OrderedTable

structure ReplayTable where
  records : OrderedTable ReplayKey CreateFileReplayRecord
  byInode : OrderedTable InodeId CreateFileOperationId
  byExpiry : OrderedTable ExpiryKey Unit

abbrev Store.replayTable (s : Store) : ReplayTable where
  records := s.createFileReplay
  byInode := s.createFileReplayInode
  byExpiry := s.createFileReplayExpiry

namespace ReplayTable

/-- Every record is under its own key and in both indexes, and every index entry
leads to its record. -/
structure Consistent (T : ReplayTable) : Prop where
  record_key : ∀ {key record}, T.records.get key = some record →
    record.operationId.key = key
  record_indexed : ∀ {key record}, T.records.get key = some record →
    T.byInode.get record.inodeId = some record.operationId
  record_expiry : ∀ {key record}, T.records.get key = some record →
    T.byExpiry.get (expiryKey record.expiresAtMs record.operationId) = some ()
  index_record : ∀ {i operationId}, T.byInode.get i = some operationId →
    ∃ record, T.records.get operationId.key = some record ∧ record.inodeId = i
  expiry_record : ∀ {expiresAtMs operationId},
    T.byExpiry.get (expiryKey expiresAtMs operationId) = some () →
    ∃ record, T.records.get operationId.key = some record ∧
      record.expiresAtMs = expiresAtMs

def evict (T : ReplayTable) (record : CreateFileReplayRecord) : ReplayTable where
  records := T.records.delete record.operationId.key
  byInode := T.byInode.delete record.inodeId
  byExpiry := T.byExpiry.delete (expiryKey record.expiresAtMs record.operationId)

def insert (T : ReplayTable) (record : CreateFileReplayRecord) : ReplayTable where
  records := T.records.put record.operationId.key record
  byInode := T.byInode.put record.inodeId record.operationId
  byExpiry := T.byExpiry.put (expiryKey record.expiresAtMs record.operationId) ()

variable {T : ReplayTable} {record : CreateFileReplayRecord} {key : ReplayKey}
  {other : CreateFileReplayRecord}

theorem evict_records : (T.evict record).records.get key = some other ↔
      key ≠ record.operationId.key ∧ T.records.get key = some other := by
  simp only [evict, get_delete]
  split
  next heq => simp [heq]
  next hne => simp [hne]

theorem evict_byInode {i : InodeId} {operationId : CreateFileOperationId} :
    (T.evict record).byInode.get i = some operationId ↔
      i ≠ record.inodeId ∧ T.byInode.get i = some operationId := by
  simp only [evict, get_delete]
  split
  next heq => simp [heq]
  next hne => simp [hne]

theorem evict_byExpiry {key : ExpiryKey} : (T.evict record).byExpiry.get key = some () ↔
      key ≠ expiryKey record.expiresAtMs record.operationId ∧ T.byExpiry.get key = some () := by
  simp only [evict, get_delete]
  split
  next heq => simp [heq]
  next hne => simp [hne]

theorem Consistent.eq_of_inodeId (h : T.Consistent) {key' : ReplayKey}
    (hrecord : T.records.get key = some record) (hother : T.records.get key' = some other)
    (hid : record.inodeId = other.inodeId) : key = key' := by
  have hleft := h.record_indexed hrecord
  have hright := h.record_indexed hother
  rw [hid, hright] at hleft
  rw [← h.record_key hrecord, ← h.record_key hother, Option.some.inj hleft]

theorem Consistent.evict (h : T.Consistent)
    (hrecord : T.records.get record.operationId.key = some record) :
    (T.evict record).Consistent where
  record_key hother := h.record_key (evict_records.1 hother).2
  record_indexed hother := by
    obtain ⟨hkey, hother⟩ := evict_records.1 hother
    refine evict_byInode.2 ⟨fun hid => ?_, h.record_indexed hother⟩
    exact hkey (h.eq_of_inodeId hother hrecord hid)
  record_expiry hother := by
    obtain ⟨hkey, hother⟩ := evict_records.1 hother
    refine evict_byExpiry.2 ⟨fun hexpiry => ?_, h.record_expiry hother⟩
    rw [← h.record_key hother, (expiryKey_inj.1 hexpiry).2] at hkey
    exact hkey rfl
  index_record hindex := by
    obtain ⟨hid, hindex⟩ := evict_byInode.1 hindex
    obtain ⟨other, hother, rfl⟩ := h.index_record hindex
    refine ⟨other, evict_records.2 ⟨fun hkey => ?_, hother⟩, rfl⟩
    rw [hkey, hrecord] at hother
    cases hother
    exact hid rfl
  expiry_record {expiresAtMs operationId} hexpiry := by
    obtain ⟨hne, hexpiry⟩ := evict_byExpiry.1 hexpiry
    obtain ⟨other, hother, rfl⟩ := h.expiry_record hexpiry
    refine ⟨other, evict_records.2 ⟨fun hkey => ?_, hother⟩, rfl⟩
    rw [hkey, hrecord] at hother
    cases hother
    exact hne (expiryKey_inj.2 ⟨rfl, CreateFileOperationId.key_inj.1 hkey⟩)

theorem insert_records : (T.insert record).records.get key = some other ↔
      (key = record.operationId.key ∧ other = record) ∨
        (key ≠ record.operationId.key ∧ T.records.get key = some other) := by
  simp only [insert, get_put]
  split
  next heq => simp [heq, eq_comm]
  next hne => simp [hne]

theorem insert_byInode {i : InodeId} {operationId : CreateFileOperationId} :
    (T.insert record).byInode.get i = some operationId ↔
      (i = record.inodeId ∧ operationId = record.operationId) ∨
        (i ≠ record.inodeId ∧ T.byInode.get i = some operationId) := by
  simp only [insert, get_put]
  split
  next heq => simp [heq, eq_comm]
  next hne => simp [hne]

theorem insert_byExpiry {key : ExpiryKey} : (T.insert record).byExpiry.get key = some () ↔
      key = expiryKey record.expiresAtMs record.operationId ∨ T.byExpiry.get key = some () := by
  simp only [insert, get_put]
  split
  next heq => simp [heq]
  next hne => simp [hne]

theorem Consistent.insert (h : T.Consistent)
    (hrecord : T.records.get record.operationId.key = none)
    (hinode : T.byInode.get record.inodeId = none) : (T.insert record).Consistent where
  record_key hother := by
    rcases insert_records.1 hother with ⟨rfl, rfl⟩ | ⟨_, hother⟩
    · rfl
    · exact h.record_key hother
  record_indexed hother := by
    rcases insert_records.1 hother with ⟨_, rfl⟩ | ⟨_, hother⟩
    · exact insert_byInode.2 (.inl ⟨rfl, rfl⟩)
    · have hindexed := h.record_indexed hother
      refine insert_byInode.2 (.inr ⟨fun hid => ?_, hindexed⟩)
      rw [hid, hinode] at hindexed
      cases hindexed
  record_expiry hother := by
    rcases insert_records.1 hother with ⟨_, rfl⟩ | ⟨_, hother⟩
    · exact insert_byExpiry.2 (.inl rfl)
    · exact insert_byExpiry.2 (.inr (h.record_expiry hother))
  index_record hindex := by
    rcases insert_byInode.1 hindex with ⟨rfl, rfl⟩ | ⟨_, hindex⟩
    · exact ⟨record, insert_records.2 (.inl ⟨rfl, rfl⟩), rfl⟩
    · obtain ⟨other, hother, hid⟩ := h.index_record hindex
      refine ⟨other, insert_records.2 (.inr ⟨fun hkey => ?_, hother⟩), hid⟩
      rw [hkey, hrecord] at hother
      cases hother
  expiry_record hexpiry := by
    rcases insert_byExpiry.1 hexpiry with hkey | hexpiry
    · obtain ⟨rfl, rfl⟩ := expiryKey_inj.1 hkey
      exact ⟨record, insert_records.2 (.inl ⟨rfl, rfl⟩), rfl⟩
    · obtain ⟨other, hother, hexpires⟩ := h.expiry_record hexpiry
      refine ⟨other, insert_records.2 (.inr ⟨fun hkey => ?_, hother⟩), hexpires⟩
      rw [hkey, hrecord] at hother
      cases hother

end ReplayTable

end Beryl
