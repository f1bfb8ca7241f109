import Mathlib
import Beryl.Replica
import Beryl.SnapshotFrame

/-!
# Writing a snapshot and reading it back

The writer puts out the frame of the families it is given, in the order in which they
are started, and refuses what does not fit.  Together with the decoder this gives the
round trip.
-/

namespace Beryl

open Transaction DecodeTotals SnapshotWriter SnapshotFrame SnapshotIdentity SnapshotFamily
open GroupName List

/-! ## Writing families -/

namespace SnapshotWriter

def inFamily (out : ByteString) (seen : List String) (name : String) (totals : DecodeTotals) :
    SnapshotWriter :=
  ⟨out, out, seen, some (name, totals.cfRecords), totals.totalRecords, totals.totalBytes⟩

def between (out : ByteString) (seen : List String) (totals : DecodeTotals) : SnapshotWriter :=
  ⟨out, out, seen, none, totals.totalRecords, totals.totalBytes⟩

variable {out : ByteString} {seen : List String} {name : String} {totals : DecodeTotals}
  {w' : SnapshotWriter} {value : Unit}

theorem writeRecord_eq_ok {record : SnapshotRecord} :
    writeRecord record.1 record.2 (inFamily out seen name totals) = (.ok value, w') ↔
      RecordFits name record ∧ (totals.add [record]).Fits ∧
        w' = inFamily (out ++ encodeRecord record) seen name (totals.add [record]) := by
  simp only [writeRecord, current_bind, okOr_bind_eq_ok_iff, failIf_bind_eq_ok_iff,
    lift_bind_eq_ok_iff, update_bind, inFamily, writeHashed]
  constructor
  · rintro ⟨_, ⟨⟩, hkey, hvalue, _, hlocal, _, hsum, hrecord, _, hcf, _, hrecords, _, hbytes, h⟩
    obtain ⟨rfl, _⟩ := checkedAddU64_eq_some hsum
    obtain ⟨rfl, hcf'⟩ := (checkedTotal_eq_ok (by decide)).1 hcf
    obtain ⟨rfl, hrecords'⟩ := (checkedTotal_eq_ok (by decide)).1 hrecords
    obtain ⟨rfl, hbytes'⟩ := (checkedTotal_eq_ok (by decide)).1 hbytes
    refine ⟨⟨not_lt.1 hkey, not_lt.1 hvalue, not_lt.1 hrecord, validateRecordKey_eq_ok.1 hlocal⟩,
      ⟨hcf', hrecords', by simpa [add, recordBytes] using hbytes'⟩, ?_⟩
    cases h
    simp [add, recordBytes, encodeRecord]
  · rintro ⟨hfits, htotals, rfl⟩
    have hkey := hfits.key_le
    have hvalue := hfits.value_le
    have hsum := hfits.record_le
    refine ⟨_, rfl, not_lt.2 hkey, not_lt.2 hvalue, (), validateRecordKey_eq_ok.2 hfits.replicated,
      _, checkedAddU64_of_lt (hsum.trans_lt (by decide)), not_lt.2 hsum, _,
      (checkedTotal_eq_ok (by decide)).2 ⟨rfl, htotals.cfRecords_le⟩, _,
      (checkedTotal_eq_ok (by decide)).2 ⟨rfl, htotals.totalRecords_le⟩, _,
      (checkedTotal_eq_ok (by decide)).2 ⟨rfl, by simpa [add, recordBytes]
        using htotals.totalBytes_le⟩, ?_⟩
    simp [update, add, recordBytes, encodeRecord]

def writeRecords : List SnapshotRecord → WriterM Unit
  | [] => pure ()
  | record :: records => do
      writeRecord record.1 record.2
      writeRecords records

def writeFamily (family : SnapshotFamily) : WriterM Unit := do
  startColumnFamily family.name
  writeRecords family.records
  endColumnFamily

def writeFamilies : List SnapshotFamily → WriterM Unit
  | [] => pure ()
  | family :: families => do
      writeFamily family
      writeFamilies families

theorem writeRecords_eq_ok {records : List SnapshotRecord} :
    ∀ {out : ByteString} {totals : DecodeTotals}, totals.Fits →
      (writeRecords records (inFamily out seen name totals) = (.ok value, w') ↔
        (∀ record ∈ records, RecordFits name record) ∧ (totals.add records).Fits ∧
          w' = inFamily (out ++ encodeRecords records) seen name (totals.add records)) := by
  induction records with
  | nil =>
    intro out totals htotals
    simp [writeRecords, pure, encodeRecords, add, recordBytes, eq_comm, htotals]
  | cons record records ih =>
    intro out totals htotals
    rw [writeRecords, bind_eq_ok_iff, add_cons]
    constructor
    · rintro ⟨_, _, hrecord, hrest⟩
      obtain ⟨hfits, hadded, rfl⟩ := writeRecord_eq_ok.1 hrecord
      obtain ⟨hfits', hadded', rfl⟩ := (ih hadded).1 hrest
      refine ⟨forall_mem_cons.2 ⟨hfits, hfits'⟩, hadded', ?_⟩
      simp [encodeRecords]
    · rintro ⟨hfits, hadded, rfl⟩
      obtain ⟨hrecord, hrest⟩ := forall_mem_cons.1 hfits
      refine ⟨(), _, writeRecord_eq_ok.2 ⟨hrecord, hadded.of_add, rfl⟩, (ih hadded.of_add).2 ⟨hrest,
        hadded, ?_⟩⟩
      simp [encodeRecords]

theorem startColumnFamily_eq_ok :
    startColumnFamily name (between out seen totals) = (.ok value, w') ↔
      name ∈ stateCfs ∧ name ∉ seen ∧
        w' = inFamily (out ++ (.ofNat 1 tagCfStart ++ (.ofNat 2 name.utf8ByteSize ++
          .ofString name))) (seen ++ [name]) name { totals with cfRecords := 0 } := by
  simp only [startColumnFamily, current_bind, failIf_bind_eq_ok_iff, update_bind, writeHashed,
    between, inFamily, update]
  constructor
  · rintro ⟨_, hlisted, _, hunseen, h⟩
    refine ⟨not_not.1 hlisted, hunseen, ?_⟩
    cases h
    simp
  · rintro ⟨hlisted, hunseen, rfl⟩
    refine ⟨by decide, not_not.2 hlisted, not_lt.2 (utf8ByteSize_le_of_listed hlisted), hunseen,
      ?_⟩
    simp

theorem endColumnFamily_eq_ok : endColumnFamily (inFamily out seen name totals) = (.ok value, w') ↔
      w' = between (out ++ (.ofNat 1 tagCfEnd ++ .ofNat 8 totals.cfRecords)) seen totals := by
  simp only [endColumnFamily, current_bind, okOr_bind_eq_ok_iff, update_bind, writeHashed, update,
    inFamily, between]
  constructor
  · rintro ⟨_, ⟨⟩, ⟨⟩⟩
    simp
  · rintro rfl
    exact ⟨_, rfl, by simp⟩

theorem writeFamily_eq_ok {family : SnapshotFamily} (htotals : totals.Fits) :
    writeFamily family (between out seen totals) = (.ok value, w') ↔
      family.Fits ∧ family.name ∉ seen ∧ (totals.addFamily family).Fits ∧
        w' = between (out ++ family.encode) (seen ++ [family.name]) (totals.addFamily family) := by
  have hzero : ({ totals with cfRecords := 0 } : DecodeTotals).Fits :=
    ⟨Nat.zero_le _, htotals.totalRecords_le, htotals.totalBytes_le⟩
  simp only [writeFamily, bind_eq_ok_iff, startColumnFamily_eq_ok]
  constructor
  · rintro ⟨_, _, ⟨hlisted, hunseen, rfl⟩, _, _, hrecords, hend⟩
    obtain ⟨hfits, hadded, rfl⟩ := (writeRecords_eq_ok hzero).1 hrecords
    refine ⟨⟨hlisted, ?_, hfits⟩, hunseen, hadded, ?_⟩
    · simpa [add] using hadded.cfRecords_le
    · rw [endColumnFamily_eq_ok.1 hend]
      simp [SnapshotFamily.encode, addFamily, add]
  · rintro ⟨hfits, hunseen, hadded, rfl⟩
    refine ⟨(), _, ⟨hfits.listed, hunseen, rfl⟩, (), _,
      (writeRecords_eq_ok hzero).2 ⟨hfits.records_fit, hadded, rfl⟩, endColumnFamily_eq_ok.2 ?_⟩
    simp [SnapshotFamily.encode, addFamily, add]

theorem writeFamilies_eq_ok {families : List SnapshotFamily} :
    ∀ {out : ByteString} {seen : List String} {totals : DecodeTotals}, seen.Nodup → totals.Fits →
      (writeFamilies families (between out seen totals) = (.ok value, w') ↔
        (∀ family ∈ families, family.Fits) ∧ (seen ++ families.map (·.name)).Nodup ∧
          (families.foldl DecodeTotals.addFamily totals).Fits ∧
          w' = between (out ++ families.flatMap SnapshotFamily.encode)
            (seen ++ families.map (·.name)) (families.foldl DecodeTotals.addFamily totals)) := by
  induction families with
  | nil =>
    intro out seen totals hseen htotals
    simp [writeFamilies, pure, eq_comm, htotals, hseen]
  | cons family families ih =>
    intro out seen totals hseen htotals
    rw [writeFamilies, bind_eq_ok_iff]
    have hnext : family.name ∉ seen → (seen ++ [family.name]).Nodup := fun hunseen =>
      List.nodup_append_comm.1 (List.nodup_cons.2 ⟨hunseen, hseen⟩)
    constructor
    · rintro ⟨_, _, hfamily, hrest⟩
      obtain ⟨hfits, hunseen, hadded, rfl⟩ := (writeFamily_eq_ok htotals).1 hfamily
      obtain ⟨hfits', hdistinct, hadded', rfl⟩ := (ih (hnext hunseen) hadded).1 hrest
      refine ⟨List.forall_mem_cons.2 ⟨hfits, hfits'⟩, by simpa using hdistinct, hadded', ?_⟩
      simp
    · rintro ⟨hfits, hdistinct, hadded, rfl⟩
      obtain ⟨hfamily, hrest⟩ := List.forall_mem_cons.1 hfits
      obtain ⟨hunseen, hadded'⟩ := families_head hfits hdistinct hadded
      refine ⟨(), _, (writeFamily_eq_ok htotals).2 ⟨hfamily, hunseen, hadded', rfl⟩,
        (ih (hnext hunseen) hadded').2 ⟨hrest, by simpa using hdistinct, hadded, ?_⟩⟩
      simp

theorem finish_eq_ok {sha256 : ByteString → Digest} {bytes : ByteString} :
    (finish sha256 (between out seen totals)).1 = .ok bytes ↔ missingCfs seen = [] ∧
      bytes = (out ++ (.ofNat 1 tagTrailer ++ (.ofNat 8 totals.totalRecords ++
        .ofNat 8 totals.totalBytes))) ++ ((sha256 (out ++ (.ofNat 1 tagTrailer ++
          (.ofNat 8 totals.totalRecords ++ .ofNat 8 totals.totalBytes)))).1 ++
            .ofNat 1 tagEnd) := by
  have hrun : (finish sha256 (between out seen totals)).1 = .ok bytes ↔
      ∃ w', finish sha256 (between out seen totals) = (.ok bytes, w') := by
    refine ⟨fun h => ⟨_, Prod.ext h rfl⟩, fun ⟨_, h⟩ => by rw [h]⟩
  rw [hrun]
  simp only [finish, current_bind, failIf_bind_eq_ok_iff, update_bind, writeHashed, between]
  simp [pure, eq_comm]

/-- A whole snapshot: the header, the families in order, the trailer. -/
def writeSnapshot (sha256 : ByteString → Digest) (identity : SnapshotIdentity)
    (families : List SnapshotFamily) : Except SnapshotCodecError ByteString :=
  match new identity with
  | .error failure => .error failure
  | .ok w => ((do writeFamilies families; finish sha256 : WriterM ByteString) w).1

end SnapshotWriter

theorem GroupName.utf8ByteSize_le (group : GroupName) : group.asStr.utf8ByteSize ≤ 63 := by
  have hvalid := group.valid
  unfold checkGroupName at hvalid
  split at hvalid
  · cases hvalid
  · split at hvalid
    · cases hvalid
    next hle => exact not_lt.1 hle

def SnapshotIdentity.frame (identity : SnapshotIdentity) (families : List SnapshotFamily) :
    SnapshotFrame := ⟨identity.groupName.asStr, identity.lastAppliedLogId, families⟩

variable {identity : SnapshotIdentity} {sha256 : ByteString → Digest} {names : List String}

theorem SnapshotWriter.new_eq_ok {w : SnapshotWriter} : SnapshotWriter.new identity = .ok w ↔
      identity.storageSchemaVersion = rocksdbSchemaVersion ∧
      w = between (encodeHeader identity.groupName.asStr identity.lastAppliedLogId) []
        ⟨0, 0, 0⟩ := by
  have hgroup : ¬(ByteString.ofString identity.groupName.asStr).length > maxGroupNameBytes := by
    have hle := identity.groupName.utf8ByteSize_le
    rw [ByteString.length_ofString]
    exact not_lt.2 (hle.trans (by decide))
  unfold new
  simp only [if_neg hgroup]
  split
  next hne => simp [hne]
  next heq =>
    rw [not_not.1 heq]
    simp [encodeHeader, between, eq_comm]

theorem writeSnapshot_eq_ok {families : List SnapshotFamily} {bytes : ByteString} :
    writeSnapshot sha256 identity families = .ok bytes ↔
      identity.storageSchemaVersion = rocksdbSchemaVersion ∧
      (∀ family ∈ families, family.Fits) ∧ (families.map (·.name)).Perm stateCfs ∧
      (identity.frame families).totals.Fits ∧ bytes = (identity.frame families).encode sha256 := by
  have hzero : (⟨0, 0, 0⟩ : DecodeTotals).Fits := ⟨by decide, by decide, by decide⟩
  have hrun : writeSnapshot sha256 identity families = .ok bytes ↔
      ∃ w w', SnapshotWriter.new identity = .ok w ∧ writeFamilies families w = (.ok (), w') ∧
        (finish sha256 w').1 = .ok bytes := by
    unfold writeSnapshot
    split
    next herror => simp [herror]
    next w hnew => simp [hnew, bind_fst_eq_ok_iff, Unique.exists_iff]
  rw [hrun]
  constructor
  · rintro ⟨_, _, hnew, hfamilies, hfinish⟩
    obtain ⟨hschema, rfl⟩ := new_eq_ok.1 hnew
    obtain ⟨hfits, hdistinct, htotals, rfl⟩ := (writeFamilies_eq_ok .nil hzero).1 hfamilies
    obtain ⟨hmissing, rfl⟩ := finish_eq_ok.1 hfinish
    have hlisted : ∀ name ∈ families.map (·.name), name ∈ stateCfs := by
      simpa using fun family hfamily => (hfits family hfamily).listed
    refine ⟨hschema, hfits, (missingCfs_eq_nil hdistinct hlisted).1 hmissing, htotals, ?_⟩
    simp [SnapshotFrame.encode, SnapshotFrame.body, SnapshotIdentity.frame, SnapshotFrame.totals]
  · rintro ⟨hschema, hfits, hcomplete, htotals, rfl⟩
    have hdistinct : (families.map (·.name)).Nodup := hcomplete.nodup_iff.2 (by decide)
    have hlisted : ∀ name ∈ families.map (·.name), name ∈ stateCfs :=
      fun name => hcomplete.mem_iff.1
    refine ⟨_, _, new_eq_ok.2 ⟨hschema, rfl⟩, (writeFamilies_eq_ok .nil hzero).2 ⟨hfits, hdistinct,
      htotals, rfl⟩, finish_eq_ok.2 ⟨(missingCfs_eq_nil hdistinct hlisted).2 hcomplete, ?_⟩⟩
    simp [SnapshotFrame.encode, SnapshotFrame.body, SnapshotIdentity.frame, SnapshotFrame.totals]

/-! ## Group names -/

theorem isWhitespace_eq_false {c : Char} (h : isAsciiLowercaseOrDigit c ∨ c = '.' ∨ c = '_' ∨
    c = '-') : isWhitespace c = false := by
  rcases h with h | rfl | rfl | rfl
  · have hrange : (97 ≤ c.toNat ∧ c.toNat ≤ 122) ∨ (48 ≤ c.toNat ∧ c.toNat ≤ 57) := by
      simpa [isAsciiLowercaseOrDigit, Char.isLower, Char.isDigit, UInt32.le_iff_toNat_le] using h
    simp [isWhitespace]
    omega
  · decide
  · decide
  · decide

theorem GroupName.isWhitespace_eq_false (group : GroupName) :
    ∀ c ∈ group.asStr.toList, isWhitespace c = false := by
  have hvalid := group.valid
  unfold checkGroupName at hvalid
  split at hvalid
  · cases hvalid
  next first rest heq =>
    rw [heq]
    by_cases hlong : group.asStr.utf8ByteSize > 63
    · rw [if_pos hlong] at hvalid
      cases hvalid
    · rw [if_neg hlong] at hvalid
      split at hvalid
      · cases hvalid
      next hfirst =>
        split at hvalid
        · cases hvalid
        next hrest =>
          simp only [Bool.not_eq_eq_eq_not, Bool.not_true, Bool.not_eq_false, all_eq_true,
            Bool.or_eq_true, beq_iff_eq, or_assoc] at hfirst hrest
          exact forall_mem_cons.2 ⟨Beryl.isWhitespace_eq_false (.inl hfirst),
            fun c hc => Beryl.isWhitespace_eq_false (hrest c hc)⟩

theorem dropWhile_eq_self {α : Type} {p : α → Bool} {xs : List α} (h : ∀ x ∈ xs, p x = false) :
    xs.dropWhile p = xs := by
  cases xs with
  | nil => rfl
  | cons x => rw [dropWhile_cons_of_neg (by simp [h x])]

theorem trim_eq_self {text : String} (h : ∀ c ∈ text.toList, isWhitespace c = false) :
    trim text = text := by
  unfold trim
  rw [dropWhile_eq_self h, dropWhile_eq_self (by simpa using h)]
  simp

theorem GroupName.parse_asStr (group : GroupName) : parse group.asStr = .ok group := by
  have htrim := trim_eq_self group.isWhitespace_eq_false
  unfold parse
  split
  next h => simp [htrim]
  next h =>
    rw [htrim, group.valid] at h
    cases h

theorem GroupName.trim_of_parse {raw : String} {group : GroupName}
    (h : parse raw = .ok group) : trim raw = group.asStr := by
  unfold parse at h
  split at h
  · cases h
    rfl
  · cases h

/-! ## The round trip -/

/-- The records that a frame holds, in order and each with its column family. -/
def deliveries (families : List SnapshotFamily) : List (String × SnapshotRecord) :=
  families.flatMap fun family => family.records.map (family.name, ·)

def collectRecord (name : String) (key value : ByteString)
    (sink : List (String × SnapshotRecord)) :
    Except SnapshotCodecError (List (String × SnapshotRecord)) :=
  .ok (sink ++ [(name, key, value)])

theorem deliverRecords_collect (name : String) (records : List SnapshotRecord) :
    ∀ sink, deliverRecords collectRecord name records sink =
      .ok (sink ++ records.map (name, ·)) := by
  induction records with
  | nil => simp [deliverRecords, pure, Except.pure]
  | cons record records ih =>
    intro sink
    refine foldlM_cons_eq_ok.2 ⟨_, rfl, (ih _).trans ?_⟩
    simp

theorem deliverFamilies_collect (families : List SnapshotFamily) :
    ∀ sink, deliverFamilies collectRecord families sink = .ok (sink ++ deliveries families) := by
  induction families with
  | nil => simp [deliverFamilies, deliveries, pure, Except.pure]
  | cons family families ih =>
    intro sink
    refine foldlM_cons_eq_ok.2 ⟨_, deliverRecords_collect _ _ _, (ih _).trans ?_⟩
    simp [deliveries]

theorem describes_of_written (hlog : ∀ logId ∈ identity.lastAppliedLogId, logId.Fits)
    {families : List SnapshotFamily} {bytes : ByteString}
    (h : writeSnapshot sha256 identity families = .ok bytes) :
    (identity.frame families).Describes identity ∧
      bytes = (identity.frame families).encode sha256 := by
  obtain ⟨hschema, hfits, hcomplete, htotals, rfl⟩ := writeSnapshot_eq_ok.1 h
  have hle := identity.groupName.utf8ByteSize_le
  exact ⟨⟨⟨hschema, hle.trans (by decide), identity.groupName.parse_asStr, hlog⟩, rfl, hfits,
    hcomplete, htotals⟩, rfl⟩

theorem SnapshotFrame.Describes.identity_unique {frame frame' : SnapshotFrame}
    {expected : SnapshotIdentity} (h : frame.Describes identity) (h' : frame'.Describes expected)
    (heq : frame.encode sha256 = frame'.encode sha256) : expected = identity := by
  simp only [SnapshotFrame.encode, SnapshotFrame.body, List.append_assoc] at heq
  obtain ⟨hgroup, hlast⟩ := encodeHeader_inj h.header.group_le h'.header.group_le
    (h.lastApplied_eq ▸ h.header.lastApplied_fits)
    (h'.lastApplied_eq ▸ h'.header.lastApplied_fits) heq
  have hname := h'.header.parses
  rw [← hgroup, h.header.parses] at hname
  cases identity
  cases expected
  simp only [SnapshotIdentity.mk.injEq]
  exact ⟨h'.header.schema_eq.trans h.header.schema_eq.symm, (Except.ok.inj hname).symm,
    h'.lastApplied_eq.symm.trans (hlast.symm.trans h.lastApplied_eq)⟩

theorem decodeSnapshotFrom_written {sha256 : ByteString → Digest} {identity : SnapshotIdentity}
    (hlog : ∀ logId ∈ identity.lastAppliedLogId, logId.Fits) {families : List SnapshotFamily}
    {bytes : ByteString} (hwritten : writeSnapshot sha256 identity families = .ok bytes) :
    decodeSnapshotFrom collectRecord sha256 identity bytes [] =
      .ok ((identity.frame families).summary, deliveries families) := by
  obtain ⟨hframe, rfl⟩ := describes_of_written hlog hwritten
  exact (decodeSnapshotFrom_eq_ok collectRecord sha256).2 ⟨_, hframe, rfl,
    deliverFamilies_collect families [], rfl⟩

theorem snapshot_round_trip (sha256 : ByteString → Digest) (identity : SnapshotIdentity)
    (hlog : ∀ logId ∈ identity.lastAppliedLogId, logId.Fits) (families : List SnapshotFamily)
    (bytes : ByteString)
    (hwritten : SnapshotWriter.writeSnapshot sha256 identity families = .ok bytes) :
    decodeSnapshotFrom collectRecord sha256 identity bytes [] =
        .ok ((identity.frame families).summary, deliveries families) ∧
      ∀ (expected : SnapshotIdentity) (result : SnapshotSummary × List (String × SnapshotRecord)),
        decodeSnapshotFrom collectRecord sha256 expected bytes [] = .ok result →
          expected = identity := by
  constructor
  · exact decodeSnapshotFrom_written hlog hwritten
  · obtain ⟨hframe, rfl⟩ := describes_of_written hlog hwritten
    rintro expected ⟨summary, gathered⟩ hdecoded
    obtain ⟨frame', hframe', heq, _⟩ := (decodeSnapshotFrom_eq_ok collectRecord sha256).1 hdecoded
    exact hframe.identity_unique hframe' heq

/-- Every column family, in the given order and with the given records. -/
def familiesWith (records : String → List SnapshotRecord) (names : List String) :
    List SnapshotFamily :=
  names.map fun name => ⟨name, records name⟩

def sampleRecord : SnapshotRecord := (.ofString "k", .ofString "v")

def zeroDigest : ByteString → Digest := fun _ => ⟨List.replicate 32 0, rfl⟩

theorem familiesWith_written (lastApplied : Option LogId) {records : String → List SnapshotRecord}
    (hrecords : ∀ name, records name = [] ∨ records name = [sampleRecord])
    (hnames : names.Perm stateCfs)
    (htotals : (frame (.current rootGroup lastApplied) (familiesWith records names)).totals.Fits) :
    writeSnapshot zeroDigest (.current rootGroup lastApplied) (familiesWith records names) =
      .ok ((frame (.current rootGroup lastApplied)
        (familiesWith records names)).encode zeroDigest) := by
  refine writeSnapshot_eq_ok.2 ⟨rfl, fun family hfamily => ?_, ?_, htotals, rfl⟩
  · obtain ⟨name, hname, rfl⟩ := mem_map.1 hfamily
    refine ⟨hnames.mem_iff.1 hname, ?_, fun record hrecord => ?_⟩
    · rcases hrecords name with hnone | hone
      · simp [hnone]
      · simp [hone, maxRecordsPerCf]
    · have heq : record = sampleRecord := by
        rcases hrecords name with hnone | hone
        · simp [hnone] at hrecord
        · simpa [hone] using hrecord
      rw [heq]
      exact ⟨by decide, by decide, by decide, fun h => absurd h.2 (by decide)⟩
  · rw [familiesWith, map_map]
    simpa [Function.comp_def] using hnames

theorem sampleLogId_fits : ∀ logId ∈ some (LogId.mk 3 1 7), logId.Fits := by
  rintro logId ⟨⟩
  exact ⟨by decide, by decide, by decide⟩

theorem snapshot_round_trip_one_record :
    ∃ bytes, decodeSnapshotFrom collectRecord zeroDigest (.current rootGroup (some ⟨3, 1, 7⟩))
      bytes [] = .ok (⟨6, 12⟩, stateCfs.map (·, .ofString "k", .ofString "v")) :=
  ⟨_, (snapshot_round_trip _ _ sampleLogId_fits _ _ (familiesWith_written _
    (fun _ => .inr rfl) (.refl stateCfs) ⟨by decide, by decide, by decide⟩)).1⟩

/-- Snapshots with another id and another membership have the same bytes. -/
theorem snapshot_frame_omits_meta : ∃ (sent other : SnapshotMeta) (bytes : ByteString),
      sent.snapshotId ≠ other.snapshotId ∧ sent.lastMembership ≠ other.lastMembership ∧
      SnapshotWriter.writeSnapshot zeroDigest (.current rootGroup sent.lastLogId)
        (familiesWith (fun _ => []) stateCfs) = .ok bytes ∧
      SnapshotWriter.writeSnapshot zeroDigest (.current rootGroup other.lastLogId)
        (familiesWith (fun _ => []) stateCfs) = .ok bytes := by
  have hwritten := familiesWith_written none (fun _ => .inl rfl) (.refl stateCfs)
    ⟨by decide, by decide, by decide⟩
  exact ⟨⟨none, ⟨none, [], []⟩, "a"⟩, ⟨none, ⟨none, [[1]], []⟩, "b"⟩, _, by decide, by decide,
    hwritten, hwritten⟩

/-! ## Canonicity -/

/-- An accepted input is the frame of its group text, the log id and its families in the
order in which they stand; when the text is the group name, it is what the writer puts out
for these families. -/
theorem snapshot_bytes_determined (sha256 : ByteString → Digest) (expected : SnapshotIdentity)
    (input : ByteString) (summary : SnapshotSummary) (gathered : List (String × SnapshotRecord))
    (h : decodeSnapshotFrom collectRecord sha256 expected input [] = .ok (summary, gathered)) :
    ∃ (group : String) (families : List SnapshotFamily),
      trim group = expected.groupName.asStr ∧ gathered = deliveries families ∧
      input = (⟨group, expected.lastAppliedLogId, families⟩ : SnapshotFrame).encode sha256 ∧
      (group = expected.groupName.asStr →
        SnapshotWriter.writeSnapshot sha256 expected families = .ok input) := by
  obtain ⟨⟨group, last, families⟩, hframe, rfl, hgive, rfl⟩ :=
    (decodeSnapshotFrom_eq_ok collectRecord sha256).1 h
  obtain rfl := hframe.lastApplied_eq
  have hgathered := (deliverFamilies_collect families []).symm.trans hgive
  have hgroup := trim_of_parse hframe.header.parses
  refine ⟨group, families, hgroup, (Except.ok.inj hgathered).symm, rfl, fun hname => ?_⟩
  refine writeSnapshot_eq_ok.2 ⟨hframe.header.schema_eq, hframe.families_fit, hframe.complete,
    hframe.totals_fit, ?_⟩
  rw [frame, hname]

/-- The families in the opposite order, each with a record. -/
theorem snapshot_bytes_determined_reversed : ∃ input group families,
    writeSnapshot zeroDigest (.current rootGroup (some ⟨3, 1, 7⟩))
      (familiesWith (fun _ => [sampleRecord]) stateCfs.reverse) = .ok input ∧
    trim group = "root" ∧ deliveries families = stateCfs.reverse.map (·, sampleRecord) ∧
    input = (⟨group, some ⟨3, 1, 7⟩, families⟩ : SnapshotFrame).encode zeroDigest := by
  have hwritten := familiesWith_written (some ⟨3, 1, 7⟩) (fun _ => .inr rfl)
    (reverse_perm stateCfs) ⟨by decide, by decide, by decide⟩
  obtain ⟨group, families, hgroup, hgathered, hinput, _⟩ := snapshot_bytes_determined _ _ _ _ _
    (decodeSnapshotFrom_written sampleLogId_fits hwritten)
  exact ⟨_, group, families, hwritten, hgroup, hgathered.symm, hinput⟩

/-- Another order of the families gives other bytes for the same snapshot. -/
theorem snapshot_bytes_not_canonical :
    ∃ plain reordered : ByteString, reordered ≠ plain ∧ ∀ input ∈ [plain, reordered],
      decodeSnapshotFrom collectRecord zeroDigest (.current rootGroup (some ⟨3, 1, 7⟩)) input [] =
        .ok (⟨1, 2⟩, [(cfInodes, sampleRecord)]) := by
  let records (name : String) : List SnapshotRecord :=
    if name = cfInodes then [sampleRecord] else []
  have hrecords (name : String) : records name = [] ∨ records name = [sampleRecord] := by
    unfold records
    split
    · exact .inr rfl
    · exact .inl rfl
  have hplain := familiesWith_written (some ⟨3, 1, 7⟩) hrecords (.refl stateCfs)
    ⟨by decide, by decide, by decide⟩
  have hreordered := familiesWith_written (some ⟨3, 1, 7⟩) hrecords (reverse_perm stateCfs)
    ⟨by decide, by decide, by decide⟩
  refine ⟨_, _, by decide, forall_mem_cons.2
    ⟨decodeSnapshotFrom_written sampleLogId_fits hplain, forall_mem_singleton.2
      (decodeSnapshotFrom_written sampleLogId_fits hreordered)⟩⟩

end Beryl
