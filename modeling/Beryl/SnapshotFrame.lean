import Beryl.SnapshotCodec

/-!
# What a snapshot frame holds

A frame is a header, the column families in the order in which they stand, and the
totals, followed by the digest of all that.  The decoder accepts exactly the frames
whose families fit the limits, and hands their records on in order; the writer writes
such a frame for the families it was given.
-/

namespace Beryl

open Transaction ByteReader Reads DecodeTotals ByteString SnapshotWriter List

/-! ## Frames -/

abbrev SnapshotRecord := ByteString × ByteString

structure SnapshotFamily where
  name : String
  records : List SnapshotRecord
deriving DecidableEq

def encodeRecord (record : SnapshotRecord) : ByteString :=
  .ofNat 1 tagKv ++ (.ofNat 4 record.1.length ++ (.ofNat 4 record.2.length ++
    (record.1 ++ record.2)))

def encodeRecords (records : List SnapshotRecord) : ByteString := records.flatMap encodeRecord

def SnapshotFamily.encode (family : SnapshotFamily) : ByteString :=
  .ofNat 1 tagCfStart ++ (.ofNat 2 family.name.utf8ByteSize ++ (.ofString family.name ++
    (encodeRecords family.records ++ (.ofNat 1 tagCfEnd ++ .ofNat 8 family.records.length))))

def recordBytes (records : List SnapshotRecord) : ℕ :=
  (records.map fun record => record.1.length + record.2.length).sum

structure RecordFits (name : String) (record : SnapshotRecord) : Prop where
  key_le : record.1.length ≤ maxKeyBytes
  value_le : record.2.length ≤ maxValueBytes
  record_le : record.1.length + record.2.length ≤ maxRecordBytes
  replicated : ¬isNodeLocalMetaKey name record.1

section Decoder

variable {σ : Type}
  (onRecord : String → ByteString → ByteString → σ → Except SnapshotCodecError σ)

def deliverRecords (name : String) (records : List SnapshotRecord) (sink : σ) :
    Except SnapshotCodecError σ :=
  records.foldlM (fun sink record => onRecord name record.1 record.2 sink) sink

def deliverFamilies (families : List SnapshotFamily) (sink : σ) :
    Except SnapshotCodecError σ :=
  families.foldlM (fun sink family => deliverRecords onRecord family.name family.records sink)
    sink

theorem foldlM_cons_eq_ok {ε α : Type} {f : σ → α → Except ε σ} {s s' : σ} {x : α} {xs : List α} :
    (x :: xs).foldlM f s = .ok s' ↔ ∃ s₁, f s x = .ok s₁ ∧ xs.foldlM f s₁ = .ok s' := by
  rw [foldlM_cons]
  cases f s x with
  | error | ok => simp [bind, Except.bind]

/-! ## Records -/

theorem checkedTotal_eq_ok {current added maximum next : ℕ} {label : String}
    (hmax : maximum < 2 ^ 64) : checkedTotal current added maximum label = .ok next ↔
      next = current + added ∧ current + added ≤ maximum := by
  unfold checkedTotal
  by_cases hlt : current + added < 2 ^ 64
  · rw [checkedAddU64_of_lt hlt]
    simp only
    split
    next hgt =>
      simp only [reduceCtorEq, false_iff, not_and]
      omega
    next hle =>
      simp only [Except.ok.injEq]
      omega
  · have hnone : checkedAddU64 current added = none := if_neg hlt
    rw [hnone]
    simp only [reduceCtorEq, false_iff, not_and]
    omega

theorem validateRecordKey_eq_ok {name : String} {key : ByteString} {value : Unit} :
    validateRecordKey name key = .ok value ↔ ¬isNodeLocalMetaKey name key := by
  unfold validateRecordKey
  split <;> simp_all

def DecodeTotals.add (totals : DecodeTotals) (records : List SnapshotRecord) : DecodeTotals :=
  ⟨totals.cfRecords + records.length, totals.totalRecords + records.length,
    totals.totalBytes + recordBytes records⟩

structure DecodeTotals.Fits (totals : DecodeTotals) : Prop where
  cfRecords_le : totals.cfRecords ≤ maxRecordsPerCf
  totalRecords_le : totals.totalRecords ≤ maxTotalRecords
  totalBytes_le : totals.totalBytes ≤ maxTotalUncompressedBytes

theorem reads_readBoundedBytes_bind {α : Type} {length maximum : ℕ} {label : String}
    {f : ByteString → DecodeM σ α} {next : ByteString → ByteString → σ → α → σ → Prop}
    (hf : ∀ value, Reads (f value) (next value)) :
    Reads (readBoundedBytes length maximum label >>= f) fun bytes s value s' =>
      length ≤ maximum ∧ ∃ front back, bytes = front ++ back ∧ front.length = length ∧
        next front back s value s' := by
  refine (reads_bind (reads_failIf_bind reads_take) fun value _ => hf value).congr
    fun bytes s value s' => ?_
  constructor
  · rintro ⟨front, back, mid, s₁, rfl, ⟨hle, rfl, rfl, rfl⟩, hnext⟩
    exact ⟨not_lt.1 hle, _, back, rfl, rfl, hnext⟩
  · rintro ⟨hle, front, back, rfl, rfl, hnext⟩
    exact ⟨front, back, front, s, rfl, ⟨not_lt.2 hle, rfl, rfl, rfl⟩, hnext⟩

theorem reads_decodeRecord (name : String) (totals : DecodeTotals) :
    Reads (decodeRecord onRecord name totals) fun bytes s value s' => ∃ record,
      RecordFits name record ∧ (totals.add [record]).Fits ∧
      .ofNat 1 tagKv ++ bytes = encodeRecord record ∧
      onRecord name record.1 record.2 s = .ok s' ∧ value = totals.add [record] := by
  unfold decodeRecord
  refine congr (reads_takeNat_bind fun keyLength => reads_takeNat_bind fun valueLength =>
    reads_failIf_bind (reads_failIf_bind (reads_okOr_bind fun recordBytes =>
      reads_failIf_bind (reads_lift_bind fun cfRecords => reads_lift_bind fun totalRecords =>
        reads_lift_bind fun totalBytes => reads_readBoundedBytes_bind fun key =>
          reads_readBoundedBytes_bind fun value => reads_lift_bind fun _ =>
            reads_hand_bind reads_pure)))) ?_
  intro bytes s value s'
  constructor
  · rintro ⟨_, _, rfl, _, _, _, rfl, _, hkey, hvalue, total, htotal, hrecord, _, hcf, _,
      hrecords, _, hbytes, _, key, _, rfl, rfl, _, contents, _, rfl, rfl, _, hlocal, _, hgive,
      rfl, rfl, rfl⟩
    obtain ⟨rfl, _⟩ := checkedAddU64_eq_some htotal
    obtain ⟨rfl, hcf'⟩ := (checkedTotal_eq_ok (by decide)).1 hcf
    obtain ⟨rfl, hrecords'⟩ := (checkedTotal_eq_ok (by decide)).1 hrecords
    obtain ⟨rfl, hbytes'⟩ := (checkedTotal_eq_ok (by decide)).1 hbytes
    refine ⟨(key, contents), ⟨not_lt.1 hkey, not_lt.1 hvalue, not_lt.1 hrecord,
      validateRecordKey_eq_ok.1 hlocal⟩, ⟨hcf', hrecords', by simpa [add,
        recordBytes] using hbytes'⟩, ?_, hgive, ?_⟩
    · simp [encodeRecord]
    · simp [add, recordBytes]
  · rintro ⟨⟨key, contents⟩, hfits, htotals, hencode, hgive, rfl⟩
    have hbytes := append_cancel_left hencode
    have hkey : key.length ≤ maxKeyBytes := hfits.key_le
    have hcontents : contents.length ≤ maxValueBytes := hfits.value_le
    have hsum : key.length + contents.length ≤ maxRecordBytes := hfits.record_le
    refine ⟨key.length, _, hbytes, hkey.trans_lt (by decide), contents.length, _, rfl,
      hcontents.trans_lt (by decide), not_lt.2 hkey, not_lt.2 hcontents, _,
      checkedAddU64_of_lt (hsum.trans_lt (by decide)), not_lt.2 hsum, _,
      (checkedTotal_eq_ok (by decide)).2 ⟨rfl, htotals.cfRecords_le⟩, _,
      (checkedTotal_eq_ok (by decide)).2 ⟨rfl, htotals.totalRecords_le⟩, _,
      (checkedTotal_eq_ok (by decide)).2 ⟨rfl, by simpa [add, recordBytes]
        using htotals.totalBytes_le⟩, hkey, key, _, rfl, rfl, hcontents, contents, [],
      (append_nil _).symm, rfl, (), validateRecordKey_eq_ok.2 hfits.replicated, s', hgive,
      rfl, ?_, rfl⟩
    simp [add, recordBytes]

theorem reads_decodeFamilyEnd (name : String) {totals : DecodeTotals} (h : totals.Fits) :
    Reads (decodeFamilyEnd name totals : DecodeM σ DecodeTotals) fun bytes s value s' =>
      bytes = .ofNat 8 totals.cfRecords ∧ value = totals ∧ s' = s := by
  refine congr (reads_takeNat_bind fun _ => reads_failIf_bind (reads_failIf_bind
    reads_pure)) fun bytes s value s' => ?_
  have hle := h.cfRecords_le
  constructor
  · rintro ⟨n, _, rfl, _, _, heq, rfl, rfl, rfl⟩
    rw [append_nil, not_not.1 heq]
    exact ⟨rfl, rfl, rfl⟩
  · rintro ⟨rfl, rfl, rfl⟩
    exact ⟨value.cfRecords, [], (append_nil _).symm, hle.trans_lt (by decide),
      not_lt.2 hle, not_not.2 rfl, rfl, rfl, rfl⟩

structure RecordsRead (name : String) (totals : DecodeTotals) (records : List SnapshotRecord)
    (bytes : ByteString) (s : σ) (value : DecodeTotals) (s' : σ) : Prop where
  fits : ∀ record ∈ records, RecordFits name record
  totals_fit : (totals.add records).Fits
  bytes_eq : bytes = encodeRecords records ++ (.ofNat 1 tagCfEnd ++
    .ofNat 8 (totals.add records).cfRecords)
  delivered : deliverRecords onRecord name records s = .ok s'
  value_eq : value = totals.add records

theorem DecodeTotals.add_cons (totals : DecodeTotals) (record : SnapshotRecord)
    (records : List SnapshotRecord) :
    totals.add (record :: records) = (totals.add [record]).add records := by
  simp [add, recordBytes]
  omega

theorem DecodeTotals.Fits.of_add {totals : DecodeTotals} {records : List SnapshotRecord}
    (h : (totals.add records).Fits) : totals.Fits :=
  ⟨(Nat.le_add_right _ _).trans h.cfRecords_le, (Nat.le_add_right _ _).trans h.totalRecords_le,
    (Nat.le_add_right _ _).trans h.totalBytes_le⟩

theorem reads_decodeRecords (name : String) (turns : ℕ) : ∀ totals : DecodeTotals, totals.Fits →
      Reads (decodeRecords onRecord name turns totals) fun bytes s value s' =>
        ∃ n ≤ turns, ∃ records, n = records.length + 1 ∧
          RecordsRead onRecord name totals records bytes s value s' := by
  induction turns with
  | zero =>
    intro totals _
    refine reads_fail.congr fun bytes s value s' => ?_
    simp
  | succ turns ih =>
    intro totals htotals
    have hrecord := reads_bind (reads_decodeRecord onRecord name totals) fun value hvalue =>
      ih value (by
        obtain ⟨_, _, _, record, _, hfits, _, _, rfl⟩ := hvalue
        exact hfits)
    refine congr (reads_takeNat_bind fun tag => reads_ite (fun _ => hrecord) fun _ =>
      reads_ite (fun _ => reads_decodeFamilyEnd name htotals) fun _ => reads_fail) ?_
    intro bytes s value s'
    constructor
    · rintro ⟨tag, _, rfl, _, ⟨rfl, front, back, _, s₁, rfl, ⟨record, hfits, _, hencode,
        hgive, rfl⟩, n, hn, records, rfl, hread⟩ | ⟨_, ⟨rfl, rfl, rfl, rfl⟩ | ⟨_, h⟩⟩⟩
      · refine ⟨records.length + 2, by omega, record :: records, rfl, ?_, ?_, ?_, ?_, ?_⟩
        · exact forall_mem_cons.2 ⟨hfits, hread.fits⟩
        · rw [add_cons]
          exact hread.totals_fit
        · rw [add_cons, hread.bytes_eq, ← append_assoc, hencode]
          simp [encodeRecords]
        · exact foldlM_cons_eq_ok.2 ⟨s₁, hgive, hread.delivered⟩
        · rw [add_cons]
          exact hread.value_eq
      · exact ⟨1, by omega, [], rfl, by simp, htotals, by simp [encodeRecords,
          add], rfl, by simp [add, recordBytes]⟩
      · exact h.elim
    · rintro ⟨n, hn, records, rfl, hread⟩
      cases records with
      | nil =>
        refine ⟨tagCfEnd, _, hread.bytes_eq, by decide, .inr ⟨by decide, .inl ⟨rfl, rfl,
          ?_, ?_⟩⟩⟩
        · simpa [add, recordBytes] using hread.value_eq
        · have hdelivered := hread.delivered
          cases hdelivered
          rfl
      | cons record records =>
        obtain ⟨s₁, hgive, hrest⟩ := foldlM_cons_eq_ok.1 hread.delivered
        obtain ⟨hfits, hrestFits⟩ := forall_mem_cons.1 hread.fits
        obtain ⟨front, hfront⟩ : ∃ front, .ofNat 1 tagKv ++ front = encodeRecord record :=
          ⟨_, rfl⟩
        have hadd := add_cons totals record records
        have hone : (totals.add [record]).Fits := DecodeTotals.Fits.of_add (hadd ▸ hread.totals_fit)
        refine ⟨tagKv, front ++ (encodeRecords records ++ (.ofNat 1 tagCfEnd ++
            .ofNat 8 (totals.add (record :: records)).cfRecords)), ?_, by decide,
          .inl ⟨rfl, front, _, totals.add [record], s₁, rfl,
            ⟨record, hfits, hone, hfront, hgive, rfl⟩, records.length + 1,
            by simpa using hn, records, rfl, hrestFits, hadd ▸ hread.totals_fit, by rw [hadd],
            hrest, hadd ▸ hread.value_eq⟩⟩
        rw [hread.bytes_eq, ← append_assoc (ofNat 1 tagKv), hfront]
        simp [encodeRecords]

/-! ## Families -/

structure SnapshotFamily.Fits (family : SnapshotFamily) : Prop where
  listed : family.name ∈ stateCfs
  count_le : family.records.length ≤ maxRecordsPerCf
  records_fit : ∀ record ∈ family.records, RecordFits family.name record

def DecodeTotals.addFamily (totals : DecodeTotals) (family : SnapshotFamily) : DecodeTotals :=
  { totals with cfRecords := 0 }.add family.records

theorem utf8ByteSize_le_of_listed {name : String} (h : name ∈ stateCfs) :
    name.utf8ByteSize ≤ maxCfNameBytes := by
  have hall : ∀ name ∈ stateCfs, name.utf8ByteSize ≤ maxCfNameBytes := by decide
  exact hall name h

theorem length_le_encodeRecords (records : List SnapshotRecord) :
    records.length ≤ (encodeRecords records).length := by
  induction records with
  | nil => exact Nat.zero_le _
  | cons record records ih =>
    simp only [encodeRecords, flatMap_cons, length_append, length_cons, encodeRecord,
      length_ofNat] at ih ⊢
    omega

theorem reads_decodeFamily (seen : List String) {totals : DecodeTotals} (htotals : totals.Fits) :
    Reads (decodeFamily onRecord seen totals) fun bytes s value s' => ∃ family,
      family.Fits ∧ family.name ∉ seen ∧ (totals.addFamily family).Fits ∧
      .ofNat 1 tagCfStart ++ bytes = family.encode ∧
      deliverRecords onRecord family.name family.records s = .ok s' ∧
      value = (family.name, totals.addFamily family) := by
  have hzero : ({ totals with cfRecords := 0 } : DecodeTotals).Fits :=
    ⟨Nat.zero_le _, htotals.totalRecords_le, htotals.totalBytes_le⟩
  have hloop := fun name => reads_looping (reads_decodeRecords onRecord name · _ hzero)
    (fun ⟨records, hturns, hread⟩ => by
      have hle := length_le_encodeRecords records
      rw [hread.bytes_eq, hturns]
      simp only [length_append, length_ofNat]
      omega)
  refine congr (reads_takeNat_bind fun nameLength => reads_readBoundedBytes_bind
    fun nameBytes => reads_okOr_bind fun name => reads_failIf_bind (reads_failIf_bind
      (reads_bind (hloop name) fun _ _ => reads_pure))) ?_
  intro bytes s value s'
  constructor
  · rintro ⟨_, _, rfl, _, _, _, _, rfl, rfl, name, htext, hlisted, hunseen, _, _, _, _, rfl,
      ⟨_, records, _, hread⟩, rfl, rfl, rfl⟩
    obtain rfl := toText_eq_some.1 htext
    refine ⟨⟨name, records⟩, ⟨not_not.1 hlisted, ?_, hread.fits⟩, hunseen, hread.totals_fit, ?_,
      hread.delivered, ?_⟩
    · simpa [add] using hread.totals_fit.cfRecords_le
    · rw [hread.bytes_eq]
      simp [SnapshotFamily.encode, add]
    · rw [hread.value_eq]
      rfl
  · rintro ⟨family, hfits, hunseen, hadded, hencode, hgive, rfl⟩
    have hle := utf8ByteSize_le_of_listed hfits.listed
    refine ⟨family.name.utf8ByteSize, _, append_cancel_left hencode,
      hle.trans_lt (by decide), hle, _, _, rfl, by simp, _, toText_eq_some.2 rfl,
      not_not.2 hfits.listed, hunseen, _, [], _, _, (append_nil _).symm,
      ⟨_, family.records, rfl, hfits.records_fit, hadded, ?_, hgive, rfl⟩, rfl, rfl, rfl⟩
    simp [add]

structure FamiliesRead (seen : List String) (totals : DecodeTotals)
    (families : List SnapshotFamily) (bytes : ByteString) (s : σ)
    (value : List String × DecodeTotals) (s' : σ) : Prop where
  fits : ∀ family ∈ families, family.Fits
  distinct : (seen ++ families.map (·.name)).Nodup
  totals_fit : (families.foldl DecodeTotals.addFamily totals).Fits
  bytes_eq : bytes = families.flatMap SnapshotFamily.encode ++ .ofNat 1 tagTrailer
  delivered : deliverFamilies onRecord families s = .ok s'
  value_eq : value = (seen ++ families.map (·.name),
    families.foldl DecodeTotals.addFamily totals)

theorem DecodeTotals.Fits.of_addFamily {totals : DecodeTotals} {family : SnapshotFamily}
    (hcf : totals.cfRecords ≤ maxRecordsPerCf) (h : (totals.addFamily family).Fits) : totals.Fits :=
  ⟨hcf, (Nat.le_add_right _ _).trans h.totalRecords_le,
    (Nat.le_add_right _ _).trans h.totalBytes_le⟩

theorem DecodeTotals.Fits.of_addFamilies {families : List SnapshotFamily}
    (hfits : ∀ family ∈ families, family.Fits) :
    ∀ {totals : DecodeTotals}, totals.cfRecords ≤ maxRecordsPerCf →
      (families.foldl DecodeTotals.addFamily totals).Fits → totals.Fits := by
  induction families with
  | nil => exact fun _ h => h
  | cons family families ih =>
    intro totals hcf h
    obtain ⟨hfamily, hrest⟩ := forall_mem_cons.1 hfits
    have hadded : (totals.addFamily family).cfRecords ≤ maxRecordsPerCf := by
      simpa [addFamily, add] using hfamily.count_le
    exact (ih hrest hadded h).of_addFamily hcf

theorem families_head {seen : List String} {totals : DecodeTotals} {family : SnapshotFamily}
    {families : List SnapshotFamily} (hfits : ∀ f ∈ family :: families, f.Fits)
    (hdistinct : (seen ++ (family :: families).map (·.name)).Nodup)
    (htotals : ((family :: families).foldl DecodeTotals.addFamily totals).Fits) :
    family.name ∉ seen ∧ (totals.addFamily family).Fits := by
  obtain ⟨hfamily, hrest⟩ := forall_mem_cons.1 hfits
  have hcount : (totals.addFamily family).cfRecords ≤ maxRecordsPerCf := by
    simpa [addFamily, add] using hfamily.count_le
  refine ⟨fun hmem => ?_, .of_addFamilies hrest hcount htotals⟩
  simp only [map_cons, nodup_append, mem_cons] at hdistinct
  exact hdistinct.2.2 _ hmem _ (.inl rfl) rfl

theorem reads_decodeFamilies (turns : ℕ) :
    ∀ (seen : List String) (totals : DecodeTotals), seen.Nodup → totals.Fits →
      Reads (decodeFamilies onRecord turns seen totals) fun bytes s value s' =>
        ∃ n ≤ turns, ∃ families, n = families.length + 1 ∧
          FamiliesRead onRecord seen totals families bytes s value s' := by
  induction turns with
  | zero =>
    intro seen totals _ _
    refine reads_fail.congr fun bytes s value s' => ?_
    simp
  | succ turns ih =>
    intro seen totals hseen htotals
    have hfamily := reads_bind (reads_decodeFamily onRecord seen htotals) fun value hvalue =>
      ih (seen ++ [value.1]) value.2
        (by
          obtain ⟨_, _, _, family, _, hunseen, _, _, _, rfl⟩ := hvalue
          exact nodup_append_comm.1 (nodup_cons.2 ⟨hunseen, hseen⟩))
        (by
          obtain ⟨_, _, _, family, _, _, hadded, _, _, rfl⟩ := hvalue
          exact hadded)
    refine congr (reads_takeNat_bind fun tag => reads_ite (fun _ => reads_pure) fun _ =>
      reads_failIf_bind hfamily) ?_
    intro bytes s value s'
    constructor
    · rintro ⟨tag, _, rfl, _, ⟨rfl, rfl, rfl, rfl⟩ | ⟨_, htag, front, back, _, s₁, rfl,
        ⟨family, hfits, hunseen, _, hencode, hgive, rfl⟩, n, hn, families, rfl, hread⟩⟩
      · exact ⟨1, by omega, [], rfl, by simp, by simpa using hseen, htotals, by simp, rfl,
          by simp⟩
      · obtain rfl := not_not.1 htag
        refine ⟨families.length + 2, by omega, family :: families, rfl, ?_, ?_, ?_, ?_, ?_, ?_⟩
        · exact forall_mem_cons.2 ⟨hfits, hread.fits⟩
        · simpa using hread.distinct
        · exact hread.totals_fit
        · rw [hread.bytes_eq, ← append_assoc, hencode]
          simp
        · exact foldlM_cons_eq_ok.2 ⟨s₁, hgive, hread.delivered⟩
        · rw [hread.value_eq]
          simp
    · rintro ⟨n, hn, families, rfl, hread⟩
      cases families with
      | nil =>
        refine ⟨tagTrailer, [], by simpa using hread.bytes_eq, by decide, .inl ⟨rfl, rfl, ?_,
          ?_⟩⟩
        · simpa using hread.value_eq
        · have hdelivered := hread.delivered
          cases hdelivered
          rfl
      | cons family families =>
        obtain ⟨s₁, hgive, hrest⟩ := foldlM_cons_eq_ok.1 hread.delivered
        obtain ⟨hfits, hrestFits⟩ := forall_mem_cons.1 hread.fits
        obtain ⟨front, hfront⟩ : ∃ front, .ofNat 1 tagCfStart ++ front = family.encode :=
          ⟨_, rfl⟩
        obtain ⟨hunseen, hadded⟩ := families_head hread.fits hread.distinct hread.totals_fit
        refine ⟨tagCfStart, front ++ (families.flatMap SnapshotFamily.encode ++
            .ofNat 1 tagTrailer), ?_, by decide, .inr ⟨by decide, not_not.2 rfl, front, _, _,
          s₁, rfl, ⟨family, hfits, hunseen, hadded, hfront, hgive, rfl⟩, families.length + 1,
          by simpa using hn, families, rfl, hrestFits, by simpa using hread.distinct,
          hread.totals_fit, rfl, hrest, ?_⟩⟩
        · rw [hread.bytes_eq, ← append_assoc (ofNat 1 tagCfStart), hfront]
          simp
        · rw [hread.value_eq]
          simp

/-! ## Header -/

structure LogId.Fits (logId : LogId) : Prop where
  term_lt : logId.term < 2 ^ 64
  nodeId_lt : logId.nodeId < 2 ^ 64
  index_lt : logId.index < 2 ^ 64

def encodeHeader (group : String) (lastApplied : Option LogId) : ByteString :=
  snapshotMagic ++ (.ofNat 2 snapshotFormatVersion ++ (.ofNat 8 rocksdbSchemaVersion ++
    (.ofNat 2 group.utf8ByteSize ++ (.ofString group ++
      (SnapshotWriter.encodeLastApplied lastApplied ++ .ofNat 2 stateCfs.length)))))

structure HeaderFits (expected : SnapshotIdentity) (group : String) : Prop where
  schema_eq : expected.storageSchemaVersion = rocksdbSchemaVersion
  group_le : group.utf8ByteSize ≤ maxGroupNameBytes
  parses : GroupName.parse group = .ok expected.groupName
  lastApplied_fits : ∀ logId ∈ expected.lastAppliedLogId, logId.Fits

theorem reads_decodeLastApplied :
    Reads (decodeLastApplied : DecodeM σ (Option LogId)) fun bytes s value s' =>
      bytes = encodeLastApplied value ∧ (∀ logId ∈ value, logId.Fits) ∧ s' = s := by
  refine congr (reads_takeNat_bind fun presence => reads_ite (fun _ => reads_pure) fun _ =>
    reads_ite (fun _ => reads_takeNat_bind fun term => reads_takeNat_bind fun nodeId =>
      reads_takeNat_bind fun index => reads_pure) fun _ => reads_fail) fun bytes s value s' => ?_
  constructor
  · rintro ⟨_, _, rfl, _, ⟨rfl, rfl, rfl, rfl⟩ | ⟨_, ⟨rfl, _, _, rfl, hterm, _, _, rfl, hnode,
      _, _, rfl, hindex, rfl, rfl, rfl⟩ | ⟨_, h⟩⟩⟩
    · exact ⟨by simp [encodeLastApplied], by simp, rfl⟩
    · refine ⟨by simp [encodeLastApplied], ?_, rfl⟩
      rintro logId ⟨⟩
      exact ⟨hterm, hnode, hindex⟩
    · exact h.elim
  · rintro ⟨rfl, hfits, rfl⟩
    cases value with
    | none => exact ⟨0, [], rfl, by decide, .inl ⟨rfl, rfl, rfl, rfl⟩⟩
    | some logId =>
      obtain ⟨hterm, hnode, hindex⟩ := hfits logId rfl
      exact ⟨1, .ofNat 8 logId.term ++ (.ofNat 8 logId.nodeId ++ .ofNat 8 logId.index),
        by simp [encodeLastApplied], by decide, .inr ⟨by decide, .inl ⟨rfl, _, _,
          rfl, hterm, _, _, rfl, hnode, _, [], (append_nil _).symm, hindex, rfl, rfl,
          rfl⟩⟩⟩

theorem encodeHeader_inj {group group' : String} {last last' : Option LogId}
    (hgroup : group.utf8ByteSize ≤ maxGroupNameBytes)
    (hgroup' : group'.utf8ByteSize ≤ maxGroupNameBytes)
    (hlast : ∀ logId ∈ last, logId.Fits) (hlast' : ∀ logId ∈ last', logId.Fits)
    {rest rest' : ByteString}
    (h : encodeHeader group last ++ rest = encodeHeader group' last' ++ rest') :
    group = group' ∧ last = last' := by
  simp only [encodeHeader, append_assoc, append_cancel_left_eq] at h
  obtain ⟨hlength, h⟩ := append_inj h (by simp)
  have hsize := (ofNat_inj (hgroup.trans_lt (by decide))
    (hgroup'.trans_lt (by decide))).1 hlength
  obtain ⟨htext, h⟩ := append_inj h (by simpa using hsize)
  have hread := reads_decodeLastApplied (σ := Unit)
  exact ⟨ofString_inj.1 htext, hread.unique ⟨rfl, hlast, (rfl : () = ())⟩ ⟨rfl, hlast',
    (rfl : () = ())⟩ h⟩

theorem reads_decodeHeader (expected : SnapshotIdentity) :
    Reads (decodeHeader expected : DecodeM σ Unit) fun bytes s _ s' => ∃ group,
      HeaderFits expected group ∧ bytes = encodeHeader group expected.lastAppliedLogId ∧
      s' = s := by
  refine congr (reads_take_bind fun magic => reads_failIf_bind (reads_takeNat_bind
    fun version => reads_failIf_bind (reads_takeNat_bind fun schema => reads_failIf_bind
      (reads_takeNat_bind fun groupLength => reads_readBoundedBytes_bind fun groupBytes =>
        reads_okOr_bind fun groupRaw => reads_lift_bind fun groupName => reads_failIf_bind
          (reads_bind reads_decodeLastApplied fun logId _ => reads_failIf_bind
            (reads_takeNat_bind fun cfCount => reads_failIf)))))) ?_
  intro bytes s value s'
  constructor
  · rintro ⟨_, _, rfl, _, hmagic, _, _, rfl, _, hversion, _, _, rfl, _, hschema, _, _, rfl, _,
      hle, _, _, rfl, rfl, group, htext, _, hparse, hgroup, _, _, logId, _, rfl,
      ⟨rfl, hfits, rfl⟩, hlogId, _, _, rfl, _, hcount, rfl, rfl⟩
    obtain rfl := not_not.1 hmagic
    obtain rfl := not_not.1 hversion
    obtain ⟨rfl, hexpected⟩ := not_or.1 hschema |>.imp not_not.1 not_not.1
    obtain rfl := toText_eq_some.1 htext
    obtain rfl := not_not.1 hgroup
    obtain rfl := not_not.1 hlogId
    obtain rfl := not_not.1 hcount
    refine ⟨group, ⟨hexpected.symm, by simpa using hle, mapError_eq_ok.1 hparse, hfits⟩, ?_, rfl⟩
    simp [encodeHeader]
  · rintro ⟨group, hfits, rfl, rfl⟩
    exact ⟨_, _, rfl, rfl, not_not.2 rfl, _, _, rfl, by decide, not_not.2 rfl, _, _, rfl,
      by decide, not_or.2 ⟨not_not.2 rfl, not_not.2 hfits.schema_eq.symm⟩, _, _, rfl,
      hfits.group_le.trans_lt (by decide), hfits.group_le, _, _, rfl, rfl, group,
      toText_eq_some.2 rfl, _, mapError_eq_ok.2 hfits.parses, not_not.2 rfl, _, _, _,
      _, rfl, ⟨rfl, hfits.lastApplied_fits, rfl⟩, not_not.2 rfl, _, [],
      (append_nil _).symm, by decide, not_not.2 rfl, rfl, rfl⟩

theorem reads_decodeTotals {totals : DecodeTotals} (h : totals.Fits) :
    Reads (decodeTotals totals : DecodeM σ Unit) fun bytes s _ s' =>
      bytes = .ofNat 8 totals.totalRecords ++ .ofNat 8 totals.totalBytes ∧ s' = s := by
  refine congr (reads_takeNat_bind fun _ => reads_failIf_bind (reads_failIf_bind
    (reads_takeNat_bind fun _ => reads_failIf_bind reads_failIf))) fun bytes s value s' => ?_
  have hrecords := h.totalRecords_le
  have hbytes := h.totalBytes_le
  constructor
  · rintro ⟨_, _, rfl, _, _, hrecords', _, _, rfl, _, _, hbytes', rfl, rfl⟩
    rw [not_not.1 hrecords', not_not.1 hbytes', append_nil]
    exact ⟨rfl, rfl⟩
  · rintro ⟨rfl, rfl⟩
    exact ⟨_, _, rfl, hrecords.trans_lt (by decide), not_lt.2 hrecords, not_not.2 rfl, _, [],
      (append_nil _).symm, hbytes.trans_lt (by decide), not_lt.2 hbytes, not_not.2 rfl, rfl,
      rfl⟩

/-! ## Whole frames -/

structure SnapshotFrame where
  group : String
  lastApplied : Option LogId
  families : List SnapshotFamily
deriving DecidableEq

namespace SnapshotFrame

def totals (frame : SnapshotFrame) : DecodeTotals :=
  frame.families.foldl DecodeTotals.addFamily ⟨0, 0, 0⟩

def summary (frame : SnapshotFrame) : SnapshotSummary :=
  ⟨frame.totals.totalRecords, frame.totals.totalBytes⟩

def body (frame : SnapshotFrame) : ByteString :=
  encodeHeader frame.group frame.lastApplied ++ (frame.families.flatMap SnapshotFamily.encode ++
    (.ofNat 1 tagTrailer ++ (.ofNat 8 frame.totals.totalRecords ++
      .ofNat 8 frame.totals.totalBytes)))

def encode (sha256 : ByteString → Digest) (frame : SnapshotFrame) : ByteString :=
  frame.body ++ ((sha256 frame.body).1 ++ .ofNat 1 tagEnd)

/-- A frame for the expected identity: its group name reads as the expected one, every
column family is there once, and the limits are kept. -/
structure Describes (frame : SnapshotFrame) (expected : SnapshotIdentity) : Prop where
  header : HeaderFits expected frame.group
  lastApplied_eq : frame.lastApplied = expected.lastAppliedLogId
  families_fit : ∀ family ∈ frame.families, family.Fits
  complete : (frame.families.map (·.name)).Perm stateCfs
  totals_fit : frame.totals.Fits

end SnapshotFrame

theorem missingCfs_eq_nil {seen : List String} (hseen : seen.Nodup)
    (hlisted : ∀ name ∈ seen, name ∈ stateCfs) : missingCfs seen = [] ↔ seen.Perm stateCfs := by
  unfold missingCfs
  rw [filter_eq_nil_iff]
  simp only [decide_not, Bool.not_eq_eq_eq_not, Bool.not_true, decide_eq_false_iff_not, not_not]
  constructor
  · exact fun h => (perm_ext_iff_of_nodup hseen (by decide)).2 fun name =>
      ⟨hlisted name, h name⟩
  · exact fun h name hname => h.mem_iff.2 hname

theorem length_le_flatMap_encode (families : List SnapshotFamily) :
    families.length ≤ (families.flatMap SnapshotFamily.encode).length := by
  induction families with
  | nil => exact Nat.zero_le _
  | cons family families ih =>
    simp only [flatMap_cons, length_append, length_cons, SnapshotFamily.encode,
      length_ofNat] at ih ⊢
    omega

theorem reads_decodeBody (expected : SnapshotIdentity) :
    Reads (decodeBody onRecord expected) fun bytes s value s' => ∃ frame : SnapshotFrame,
      frame.Describes expected ∧ bytes = frame.body ∧
      deliverFamilies onRecord frame.families s = .ok s' ∧ value = frame.summary := by
  have hzero : (⟨0, 0, 0⟩ : DecodeTotals).Fits := ⟨by decide, by decide, by decide⟩
  have hloop := reads_looping (reads_decodeFamilies onRecord · [] _ nodup_nil hzero)
    (fun ⟨families, hturns, hread⟩ => by
      have hle := length_le_flatMap_encode families
      rw [hread.bytes_eq, hturns]
      simp only [length_append, length_ofNat]
      omega)
  refine congr (reads_bind (reads_decodeHeader expected) fun _ _ => reads_bind hloop
    fun value hvalue => reads_failIf_bind (reads_bind (reads_decodeTotals ?_) fun _ _ =>
      reads_pure)) ?_
  · obtain ⟨_, _, _, _, families, _, hread⟩ := hvalue
    rw [hread.value_eq]
    exact hread.totals_fit
  intro bytes s value s'
  constructor
  · rintro ⟨_, _, _, _, rfl, ⟨group, hheader, rfl, rfl⟩, _, _, ⟨_, _⟩, _, rfl,
      ⟨_, families, _, hread⟩, hmissing, _, _, _, _, rfl, ⟨rfl, rfl⟩, rfl, rfl, rfl⟩
    obtain ⟨rfl, rfl⟩ := Prod.mk.inj hread.value_eq
    have hlisted : ∀ name ∈ families.map (·.name), name ∈ stateCfs := by
      simpa using fun family hfamily => (hread.fits family hfamily).listed
    have hcomplete := (missingCfs_eq_nil hread.distinct hlisted).1 (not_not.1 hmissing)
    refine ⟨⟨group, expected.lastAppliedLogId, families⟩, ⟨hheader, rfl, hread.fits, hcomplete,
      hread.totals_fit⟩, ?_, hread.delivered, rfl⟩
    rw [hread.bytes_eq]
    simp [SnapshotFrame.body, SnapshotFrame.totals]
  · rintro ⟨⟨group, lastApplied, families⟩, hframe, rfl, hgive, rfl⟩
    obtain rfl := hframe.lastApplied_eq
    have hdistinct : (families.map (·.name)).Nodup := hframe.complete.nodup_iff.2 (by decide)
    have hlisted : ∀ name ∈ families.map (·.name), name ∈ stateCfs :=
      fun name => hframe.complete.mem_iff.1
    refine ⟨_, _, (), s, rfl, ⟨group, hframe.header, rfl, rfl⟩,
      families.flatMap SnapshotFamily.encode ++ .ofNat 1 tagTrailer, _, (_, _), s', ?_, ⟨_,
      families, rfl, hframe.families_fit, hdistinct, hframe.totals_fit, rfl, hgive, rfl⟩,
      not_not.2 ((missingCfs_eq_nil hdistinct hlisted).2 hframe.complete), _, [], (), s',
      (append_nil _).symm, ⟨rfl, rfl⟩, rfl, rfl, rfl⟩
    simp [SnapshotFrame.totals]

theorem reads_decodeChecksum (digest : Digest) :
    Reads (decodeChecksum digest : DecodeM σ Unit) fun bytes s _ s' =>
      bytes = digest.1 ++ .ofNat 1 tagEnd ∧ s' = s := by
  refine congr (reads_take_bind fun _ => reads_failIf_bind (reads_takeNat_bind fun _ =>
    reads_failIf)) fun bytes s value s' => ?_
  constructor
  · rintro ⟨_, _, rfl, _, hsum, _, _, rfl, _, hend, rfl, rfl⟩
    rw [← not_not.1 hsum, not_not.1 hend, append_nil]
    exact ⟨rfl, rfl⟩
  · rintro ⟨rfl, rfl⟩
    exact ⟨_, _, rfl, digest.2, not_not.2 rfl, _, [], (append_nil _).symm, by decide,
      not_not.2 rfl, rfl, rfl⟩

variable (sha256 : ByteString → Digest)

/-- What `decode_snapshot` returns for an input, with what the callback has gathered. -/
def decodeSnapshotFrom (expected : SnapshotIdentity) (input : ByteString) (sink : σ) :
    Except SnapshotCodecError (SnapshotSummary × σ) :=
  match decodeSnapshot onRecord sha256 expected ⟨input, [], sink⟩ with
  | (.ok summary, reader) => .ok (summary, reader.sink)
  | (.error failure, _) => .error failure

theorem decodeSnapshot_eq_ok {expected : SnapshotIdentity} {r r' : ByteReader σ}
    {summary : SnapshotSummary} : decodeSnapshot onRecord sha256 expected r = (.ok summary, r') ↔
      ∃ r₁, decodeBody onRecord expected r = (.ok summary, r₁) ∧
        decodeChecksum (sha256 r₁.taken) r₁ = (.ok (), r') ∧ r'.inner = [] := by
  constructor
  · intro h
    obtain ⟨_, r₁, hbody, hsum⟩ := bind_eq_ok h
    obtain ⟨_, r₂, hchecked, hend⟩ := bind_eq_ok
      (show (decodeChecksum (sha256 r₁.taken) >>= _) r₁ = _ from hsum)
    obtain ⟨_, _, hread, hpure⟩ := bind_eq_ok
      (show (failIf (r₂.inner ≠ []) _ >>= _) r₂ = _ from hend)
    by_cases hinner : r₂.inner ≠ []
    · rw [failIf, if_pos hinner] at hread
      cases hread
    · rw [failIf, if_neg hinner] at hread
      cases hread
      cases hpure
      exact ⟨r₁, hbody, hchecked, not_not.1 hinner⟩
  · rintro ⟨r₁, hbody, hchecked, hinner⟩
    refine (bind_of_ok hbody).trans ((bind_of_ok hchecked).trans ?_)
    show (failIf (r'.inner ≠ []) _ >>= _) r' = _
    rw [failIf, if_neg (not_not.2 hinner)]
    rfl

theorem decodeSnapshotFrom_eq_ok {expected : SnapshotIdentity} {input : ByteString}
    {sink sink' : σ} {summary : SnapshotSummary} :
    decodeSnapshotFrom onRecord sha256 expected input sink = .ok (summary, sink') ↔
      ∃ frame : SnapshotFrame, frame.Describes expected ∧ input = frame.encode sha256 ∧
        deliverFamilies onRecord frame.families sink = .ok sink' ∧ summary = frame.summary := by
  have hrun : decodeSnapshotFrom onRecord sha256 expected input sink = .ok (summary, sink') ↔
      ∃ r', decodeSnapshot onRecord sha256 expected ⟨input, [], sink⟩ = (.ok summary, r') ∧
        r'.sink = sink' := by
    unfold decodeSnapshotFrom
    split
    next hok => simp [hok]
    next herror => simp [herror]
  rw [hrun]
  constructor
  · rintro ⟨r', h, rfl⟩
    obtain ⟨r₁, hbody, hchecked, hinner⟩ := (decodeSnapshot_eq_ok onRecord sha256).1 h
    obtain ⟨_, hinput, htaken, frame, hframe, rfl, hgive, rfl⟩ :=
      (reads_decodeBody onRecord expected _ _ _).1 hbody
    obtain ⟨_, hrest, _, rfl, hsink⟩ := (reads_decodeChecksum _ _ _ _).1 hchecked
    refine ⟨frame, hframe, ?_, hsink ▸ hgive, rfl⟩
    simp only [nil_append] at htaken
    rw [hinner, htaken, append_nil] at hrest
    rw [show input = _ from hinput, hrest, SnapshotFrame.encode]
  · rintro ⟨frame, hframe, rfl, hgive, rfl⟩
    refine ⟨⟨[], frame.body ++ ((sha256 frame.body).1 ++ .ofNat 1 tagEnd), sink'⟩,
      (decodeSnapshot_eq_ok onRecord sha256).2
        ⟨⟨(sha256 frame.body).1 ++ .ofNat 1 tagEnd, frame.body, sink'⟩, ?_, ?_, rfl⟩, rfl⟩
    · exact (reads_decodeBody onRecord expected _ _ _).2 ⟨_, rfl, rfl, frame, hframe, rfl, hgive,
        rfl⟩
    · exact (reads_decodeChecksum _ _ _ _).2 ⟨_, (append_nil _).symm, rfl, rfl, rfl⟩

end Decoder

end Beryl
