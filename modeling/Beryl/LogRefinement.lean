import Beryl.RaftStore
import Beryl.Replica
import Beryl.SnapshotWriting

/-!
# The Raft log as a window of entries

A log is the entries after the purged one, without a gap.  The store keeps them under
decimal keys; since these are ordered as the indexes are, an iterator over keys is an
iterator over indexes, and every call of the store is one operation on the window.
The protocol state beside the log is written through.
-/

namespace Beryl

open History Transaction Entry OrderedTable Decimal List

variable {F P : Type}

def Entry.index (entry : Entry P) : ℕ := entry.logId.index

/-! ## Windows -/

structure LogWindow (P : Type) where
  purged : Option LogId
  entries : List (Entry P)

namespace LogWindow

def first (w : LogWindow P) : ℕ :=
  match w.purged with
  | none => 0
  | some logId => logId.index + 1

def next (w : LogWindow P) : ℕ := w.first + w.entries.length

def lastLogId (w : LogWindow P) : Option LogId :=
  match w.entries.getLast? with
  | some entry => some entry.logId
  | none => w.purged

structure Valid (w : LogWindow P) : Prop where
  indexes : w.entries.map Entry.index = List.range' w.first w.entries.length
  next_le : w.next ≤ 2 ^ 64

end LogWindow

theorem filter_lt_range' (b : ℕ) : ∀ n s : ℕ, (range' s n).filter (· < b) =
    range' s (min n (b - s)) := by
  intro n
  induction n with
  | zero => simp
  | succ n ih =>
    intro s
    rw [range'_succ]
    by_cases h : s < b
    · rw [filter_cons_of_pos (by simpa using h), ih]
      have hmin : min (n + 1) (b - s) = min n (b - (s + 1)) + 1 := by omega
      rw [hmin, range'_succ]
    · have hnone : (range' (s + 1) n).filter (· < b) = [] := by
        rw [ih]
        have hmin : min n (b - (s + 1)) = 0 := by omega
        simp [hmin]
      have hmin : min (n + 1) (b - s) = 0 := by omega
      rw [filter_cons_of_neg (by simpa using h), hnone, hmin]
      rfl

theorem filter_ge_range' (b : ℕ) : ∀ n s : ℕ, (range' s n).filter (b ≤ ·) =
    range' (max s b) (n - (b - s)) := by
  intro n
  induction n with
  | zero => simp
  | succ n ih =>
    intro s
    rw [range'_succ]
    by_cases h : b ≤ s
    · have hrest := ih (s + 1)
      have hsub : n - (b - (s + 1)) = n := by omega
      have hsub' : n + 1 - (b - s) = n + 1 := by omega
      have hmax : max (s + 1) b = s + 1 := by omega
      have hmax' : max s b = s := by omega
      rw [filter_cons_of_pos (by simpa using h), hrest, hsub, hsub', hmax, hmax',
        range'_succ]
    · have hmax : max (s + 1) b = max s b := by omega
      have hsub : n + 1 - (b - s) = n - (b - (s + 1)) := by omega
      rw [filter_cons_of_neg (by simpa using h), ih, hmax, hsub]

theorem indexes_of_eq_range' {entries : List (Entry P)} {first n : ℕ}
    (h : entries.map index = range' first n) : entries.map index = range' first entries.length := by
  have hlength := congrArg length h
  simp only [length_map, length_range'] at hlength
  rw [h, hlength]

namespace LogWindow.Valid

variable {w : LogWindow P}

theorem map_filter (h : w.Valid) (p : ℕ → Bool) :
    (w.entries.filter fun entry => p entry.index).map index =
      (range' w.first w.entries.length).filter p := by
  rw [← h.indexes, filter_map]
  rfl

theorem index_lt (h : w.Valid) {entry : Entry P} (hentry : entry ∈ w.entries) :
    w.first ≤ entry.index ∧ entry.index < w.next := by
  have hmem := mem_map_of_mem (f := index) hentry
  rw [h.indexes, mem_range'_1] at hmem
  exact hmem

theorem truncate (h : w.Valid) (start : ℕ) :
    Valid ⟨w.purged, w.entries.filter fun entry => entry.index < start⟩ := by
  have hindexes := h.map_filter (· < start)
  rw [filter_lt_range'] at hindexes
  refine ⟨indexes_of_eq_range' hindexes, ?_⟩
  have hle := length_filter_le (fun entry : Entry P => decide (entry.index < start)) w.entries
  have hnext := h.next_le
  simp only [next, first] at hnext ⊢
  omega

theorem purge (h : w.Valid) {logId : LogId} (hindex : logId.index < 2 ^ 64)
    (hfirst : w.first ≤ logId.index + 1) :
    Valid ⟨some logId, w.entries.filter fun entry => logId.index < entry.index⟩ := by
  have hindexes := h.map_filter (logId.index + 1 ≤ ·)
  rw [filter_ge_range', max_eq_right hfirst] at hindexes
  have hlength := congrArg length hindexes
  simp only [length_map, length_range'] at hlength
  refine ⟨indexes_of_eq_range' hindexes, ?_⟩
  have hnext := h.next_le
  simp only [next, first, Nat.succ_le_iff] at hnext hlength hfirst ⊢
  omega

theorem append (h : w.Valid) {added : List (Entry P)}
    (hadded : added.map index = range' w.next added.length)
    (hbound : w.next + added.length ≤ 2 ^ 64) : Valid ⟨w.purged, w.entries ++ added⟩ := by
  constructor
  · rw [map_append, h.indexes, hadded, length_append, next, range'_append_1]
    rfl
  · simp only [next, first, length_append] at hbound ⊢
    omega

end LogWindow.Valid

/-! ## Keys and rows -/

theorem logKey_le {i j : ℕ} (hi : i < 2 ^ 64) (hj : j < 2 ^ 64) : logKey i ≤ logKey j ↔ i ≤ j := by
  rw [← not_lt, ← not_lt, logKey, logKey,
    ofString_padded_lt (hj.trans (by decide)) (hi.trans (by decide))]

theorem logKey_lt {i j : ℕ} (hi : i < 2 ^ 64) (hj : j < 2 ^ 64) : logKey i < logKey j ↔ i < j := by
  rw [← not_le, logKey_le hj hi, not_le]

theorem toText_logKey (i : ℕ) : (logKey i).toText = some (padded 20 i) :=
  ByteString.toText_eq_some.2 rfl

theorem parse_logKey {i : ℕ} (hi : i < 2 ^ 64) : parseU64 (padded 20 i) = some i :=
  parseU64_padded (hi.trans (by decide)) hi

theorem trim_padded (i : ℕ) : trim (padded 20 i) = padded 20 i := by
  have hdigits : ∀ c ∈ (padded 20 i).toList, isWhitespace c = false := by
    intro c hc
    obtain ⟨d, hd, rfl⟩ := mem_padded hc
    interval_cases d <;> decide
  exact trim_eq_self hdigits

def Entry.row (codec : EntryCodec P) (entry : Entry P) : ByteString × ByteString :=
  (logKey entry.index, codec.encode entry)

variable {codec : EntryCodec P} {env : RaftEnv} {node : RaftNode F} {w : LogWindow P}

theorem LogWindow.Valid.rows_ascending (h : w.Valid) (codec : EntryCodec P) :
    OrderedTable.Ascending (w.entries.map (row codec)) := by
  have hsorted : (w.entries.map index).Pairwise (· < ·) := by
    rw [h.indexes]
    exact pairwise_lt_range'
  refine pairwise_map.2 ((pairwise_map.1 hsorted).imp_of_mem ?_)
  intro a b ha hb hlt
  exact (logKey_lt ((h.index_lt ha).2.trans_le h.next_le)
    ((h.index_lt hb).2.trans_le h.next_le)).2 hlt

structure Represents (codec : EntryCodec P) (node : RaftNode F) (w : LogWindow P) : Prop where
  valid : w.Valid
  purged_eq : node.memory.lastPurgedLogId = w.purged
  log_eq : node.generation.raftLog.entries = w.entries.map (Entry.row codec)
  idle : node.installs.pendingId = none
  healthy : node.poisoned = false

theorem LogWindow.Valid.filter_rows (h : w.Valid) (codec : EntryCodec P)
    (p : ByteString → Bool) (q : ℕ → Bool) (hpq : ∀ i < 2 ^ 64, p (logKey i) = q i) :
    (w.entries.map (Entry.row codec)).filter (fun row => p row.1) =
      (w.entries.filter fun entry => q entry.index).map (Entry.row codec) := by
  rw [filter_map]
  congr 1
  refine filter_congr fun entry hentry => hpq _ ?_
  exact (h.index_lt hentry).2.trans_le h.next_le

/-! ## Calls -/

def RaftEnv.Faulty (env : RaftEnv) : Prop := ∃ which, env.fault which ≠ none

theorem ensures_call {which : RaftCall} {message : String → String}
    {ok : Unit → RaftNode F → Prop} {err : MetadataError → RaftNode F → Prop}
    (herr : ∀ error, env.Faulty → err error node) (hok : ok () node) :
    Ensures (call env which message) node ok err := by
  unfold call
  cases h : env.fault which with
  | none => exact hok
  | some => exact herr _ ⟨which, by simp [h]⟩

theorem pinGeneration_of_healthy (h : node.poisoned = false) :
    pinGeneration node = (.ok node.generation, node) := by
  unfold pinGeneration
  refine current_bind.trans ?_
  rw [failIf, if_neg (by simp [h])]
  rfl

abbrev Fails {ε : Type} (env : RaftEnv) (node : RaftNode F) : ε → RaftNode F → Prop :=
  fun _ node' => node' = node ∧ env.Faulty

theorem truncateRaftLogs_ensures (h : Represents codec node w) {start : ℕ}
    (hstart : start < 2 ^ 64) : Ensures (truncateRaftLogs env start) node
      (fun _ node' => Represents codec node'
        ⟨w.purged, w.entries.filter fun entry => entry.index < start⟩) (Fails env node) := by
  refine ensures_bind_of_ok (pinGeneration_of_healthy h.healthy) (ensures_bind (ensures_call
    (fun _ hfault => ⟨rfl, hfault⟩) (ensures_bind (ensures_call (fun _ hfault => ⟨rfl, hfault⟩)
      (ensures_update ?_)))))
  refine ⟨h.valid.truncate start, h.purged_eq, ?_, h.idle, h.healthy⟩
  have hkeys : (node.generation.raftLog.entriesFrom (logKey start)).map Prod.fst =
      (node.generation.raftLog.entries.map Prod.fst).filter (logKey start ≤ ·) := by
    simp only [entriesFrom, filter_map, Function.comp_def]
  simp only [hkeys]
  rw [entries_deleteAll_filter, h.log_eq]
  refine h.valid.filter_rows codec (fun key => !decide (logKey start ≤ key))
    (fun i => decide (i < start)) fun i hi => ?_
  simp only [decide_eq_decide.2 (logKey_le hstart hi), ← decide_not, not_le]

theorem purgeRaftLogsAndState_ensures (h : Represents codec node w) {logId : LogId}
    (hindex : logId.index < 2 ^ 64) (hfirst : w.first ≤ logId.index + 1)
    (state : AppMetadataRaftState) : Ensures (purgeRaftLogsAndState env logId.index state) node
      (fun _ node' => ∀ memory : AppMetadataRaftState, memory.lastPurgedLogId = some logId →
        Represents codec { node' with memory := memory }
          ⟨some logId, w.entries.filter fun entry => logId.index < entry.index⟩)
      (Fails env node) := by
  refine ensures_bind_of_ok (pinGeneration_of_healthy h.healthy) (ensures_bind (ensures_call
    (fun _ hfault => ⟨rfl, hfault⟩) (ensures_bind (ensures_call (fun _ hfault => ⟨rfl, hfault⟩)
      (ensures_bind (ensures_call (fun _ hfault => ⟨rfl, hfault⟩) (ensures_update ?_)))))))
  intro memory hmemory
  refine ⟨h.valid.purge hindex hfirst, hmemory, ?_, h.idle, h.healthy⟩
  simp only [takeWhile_le node.generation.raftLog.keys_ascending]
  rw [entries_deleteAll_filter, h.log_eq]
  refine h.valid.filter_rows codec (fun key => !decide (key ≤ logKey logId.index))
    (fun i => decide (logId.index < i)) fun i hi => ?_
  simp only [decide_eq_decide.2 (logKey_le hi hindex), ← decide_not, not_le]

theorem firstGap_eq_none {first : ℕ} :
    ∀ n : ℕ, first + n ≤ 2 ^ 64 → firstGap (range' first n) = none := by
  intro n
  induction n generalizing first with
  | zero => exact fun _ => rfl
  | succ n ih =>
    intro hle
    cases n with
    | zero => rfl
    | succ =>
      rw [range'_succ, range'_succ, firstGap,
        if_pos (checkedAddU64_of_lt (by omega)), ← range'_succ]
      exact ih (by omega)

theorem appendRaftLogsDurable_ensures (h : Represents codec node w) {added : List (Entry P)}
    (hadded : added.map Entry.index = range' w.next added.length)
    (hbound : w.next + added.length ≤ 2 ^ 64) : Ensures (appendRaftLogsDurable env
        (added.map fun entry => (entry.index, codec.encode entry))) node
      (fun _ node' => Represents codec node' ⟨w.purged, w.entries ++ added⟩) (Fails env node) := by
  have hvalid := h.valid.append hadded hbound
  have hgap : firstGap ((added.map fun entry => (entry.index, codec.encode entry)).map
      Prod.fst) = none := by
    have hindexes : (added.map fun entry => (entry.index, codec.encode entry)).map Prod.fst =
        added.map index := by simp
    rw [hindexes, hadded]
    exact firstGap_eq_none _ hbound
  refine ensures_bind_of_ok (pinGeneration_of_healthy h.healthy) ?_
  simp only [hgap]
  refine ensures_bind (ensures_call (fun _ hfault => ⟨rfl, hfault⟩) (ensures_update ?_))
  refine ⟨hvalid, h.purged_eq, ?_, h.idle, h.healthy⟩
  have hrows : (added.map fun entry => (entry.index, codec.encode entry)).map
      (fun entry => (logKey entry.1, entry.2)) = added.map (row codec) := by
    simp [row]
  have hascending : OrderedTable.Ascending
      (node.generation.raftLog.entries ++ added.map (row codec)) := by
    rw [h.log_eq, ← map_append]
    exact hvalid.rows_ascending codec
  simp only [hrows]
  rw [entries_putAll hascending, h.log_eq, map_append]

/-! ## Reading -/

def below (stop : Option ℕ) (index : ℕ) : Bool := !stop.any (· ≤ index)

theorem below_of_le {stop : Option ℕ} {i j : ℕ} (h : stop.any (· ≤ i) = true) (hij : i ≤ j) :
    below stop j = false := by
  cases stop with
  | none => cases h
  | some =>
    simp only [Option.any_some, decide_eq_true_eq] at h
    simp [below, h.trans hij]

theorem scanLoop_rows (codec : EntryCodec P) (stop : Option ℕ) {entries : List (Entry P)} :
    ∀ (first : ℕ) (previous : Option ℕ),
      entries.map Entry.index = range' first entries.length → first + entries.length ≤ 2 ^ 64 →
      (∀ p ∈ previous, p + 1 = first) → scanLoop stop previous (entries.map (Entry.row codec)) =
        .ok ((entries.filter fun entry => below stop entry.index).map
          fun entry => (entry.index, codec.encode entry)) := by
  induction entries with
  | nil => exact fun _ _ _ _ _ => rfl
  | cons entry entries ih =>
    intro first previous hindexes hbound hprevious
    rw [length_cons] at hbound
    rw [map_cons, length_cons, range'_succ, List.cons.injEq] at hindexes
    obtain ⟨hindex, hrest⟩ := hindexes
    have hword : entry.index < 2 ^ 64 := by omega
    rw [map_cons, row, scanLoop, toText_logKey]
    simp only [parse_logKey hword]
    by_cases hstop : stop.any (· ≤ entry.index) = true
    · have hnone : (entry :: entries).filter (fun entry => below stop entry.index) = [] := by
        refine filter_eq_nil_iff.2 fun other hother => ?_
        have hle : entry.index ≤ other.index := by
          rcases mem_cons.1 hother with rfl | hother
          · exact le_rfl
          · have hmem := mem_map_of_mem (f := index) hother
            rw [hrest, mem_range'_1] at hmem
            omega
        simpa using below_of_le hstop hle
      rw [if_pos hstop, hnone]
      rfl
    · have hkeep : below stop entry.index = true := by simpa [below] using hstop
      have hnext := ih (first + 1) (some entry.index) hrest (by omega) (by simpa using hindex)
      simp only [if_neg hstop, filter_cons, hkeep, if_true]
      cases previous with
      | none =>
        simp only [hnext]
        rfl
      | some p =>
        have hfollows := hprevious p rfl
        simp only
        rw [if_neg (by rw [checkedAddU64_of_lt (by omega)]; simp; omega), hnext]
        rfl

theorem scanRaftLogs_ensures (h : Represents codec node w) {start : ℕ} (hstart : start < 2 ^ 64)
    (stop : Option ℕ) : Ensures (scanRaftLogs env start stop) node
      (fun rows node' => node' = node ∧ rows = (w.entries.filter fun entry =>
        start ≤ entry.index && below stop entry.index).map
          fun entry => (entry.index, codec.encode entry)) (Fails env node) := by
  refine ensures_bind_of_ok (pinGeneration_of_healthy h.healthy) (ensures_bind (ensures_call
    (fun _ hfault => ⟨rfl, hfault⟩) ?_))
  have hfrom : node.generation.raftLog.entriesFrom (logKey start) =
      (w.entries.filter fun entry => start ≤ entry.index).map (row codec) := by
    rw [entriesFrom, h.log_eq]
    refine h.valid.filter_rows codec (fun key => decide (logKey start ≤ key))
      (fun i => decide (start ≤ i)) fun i hi => ?_
    exact decide_eq_decide.2 (logKey_le hstart hi)
  have hindexes := h.valid.map_filter (start ≤ ·)
  rw [filter_ge_range'] at hindexes
  have hlength := congrArg length hindexes
  simp only [length_map, length_range'] at hlength
  have hbound : max w.first start +
      (w.entries.filter fun entry => start ≤ entry.index).length ≤ 2 ^ 64 := by
    have hnext := h.valid.next_le
    rw [hlength]
    unfold LogWindow.next at hnext
    omega
  have hscan := scanLoop_rows codec stop _ none (indexes_of_eq_range' hindexes) hbound (by simp)
  rw [hfrom, hscan]
  refine ⟨rfl, ?_⟩
  rw [filter_filter]
  simp only [Bool.and_comm]

theorem decodeEntries_encoded (codec : EntryCodec P) (entries : List (Entry P))
    (node : RaftNode F) :
    decodeEntries codec (entries.map fun entry => (entry.index, codec.encode entry)) node =
      (.ok entries, node) := by
  induction entries with
  | nil => rfl
  | cons entry entries ih =>
    have hentry : decodeLogEntry codec entry.index (codec.encode entry) node =
        (.ok entry, node) := by
      rw [decodeLogEntry, codec.decode_encode]
      rfl
    exact (bind_of_ok hentry).trans ((bind_of_ok ih).trans rfl)

theorem encodeEntries_ensures (codec : EntryCodec P) (entries : List (Entry P))
    (node : RaftNode F) :
    Ensures (encodeEntries codec env entries) node (fun encoded node' => node' = node ∧
        encoded = entries.map fun entry => (entry.index, codec.encode entry)) (Fails env node) := by
  induction entries with
  | nil => exact ⟨rfl, rfl⟩
  | cons entry entries ih =>
    refine failIf_bind (fun hfault => ⟨rfl, .encodeEntry entry.logId, ?_⟩)
      fun _ => ih.bind (fun _ _ h => h) ?_
    · exact Option.isSome_iff_ne_none.1 hfault
    · rintro encoded node' ⟨rfl, rfl⟩
      exact ⟨rfl, rfl⟩

/-! ## Range bounds -/

def Bound.starts : Bound → ℕ → Bool
  | .included i, index => i ≤ index
  | .excluded i, index => i < index
  | .unbounded, _ => true

def Bound.ends : Bound → ℕ → Bool
  | .included i, index => index ≤ i
  | .excluded i, index => index < i
  | .unbounded, _ => true

def Bound.FitsBelow : Bound → Prop
  | .included i => i < 2 ^ 64
  | .excluded i => i + 1 < 2 ^ 64
  | .unbounded => True

def Bound.FitsAbove : Bound → Prop
  | .included i => i + 1 < 2 ^ 64
  | .excluded i => i < 2 ^ 64
  | .unbounded => True

theorem startIndex_eq {lower : Bound} (h : lower.FitsBelow) (env : RaftEnv) (node : RaftNode F) :
    ∃ start < 2 ^ 64, startIndex env lower node = (.ok start, node) ∧
      ∀ i, decide (start ≤ i) = lower.starts i := by
  cases lower with
  | included i => exact ⟨i, h, rfl, fun _ => rfl⟩
  | excluded i =>
    have hword : i + 1 < 2 ^ 64 := h
    refine ⟨i + 1, h, ?_, fun _ => rfl⟩
    rw [startIndex, nextIndex, if_pos hword]
    rfl
  | unbounded => exact ⟨0, by decide, rfl, fun _ => by simp [Bound.starts]⟩

theorem endIndex_eq {upper : Bound} (h : upper.FitsAbove) (env : RaftEnv) (node : RaftNode F) :
    ∃ stop, endIndex env upper node = (.ok stop, node) ∧ ∀ i, below stop i = upper.ends i := by
  cases upper with
  | included i =>
    have hword : i + 1 < 2 ^ 64 := h
    refine ⟨some (i + 1), ?_, fun j => ?_⟩
    · rw [endIndex, nextIndex, if_pos hword]
      rfl
    · simp only [below, Option.any_some, Bound.ends, ← decide_not, not_le, Nat.lt_succ_iff]
  | excluded i =>
    refine ⟨some i, rfl, fun j => ?_⟩
    simp only [below, Option.any_some, Bound.ends, ← decide_not, not_le]
  | unbounded => exact ⟨none, rfl, fun _ => rfl⟩

theorem tryGetLogEntries_ensures (h : Represents codec node w) {lower upper : Bound}
    (hlower : lower.FitsBelow) (hupper : upper.FitsAbove) :
    Ensures (tryGetLogEntries codec env lower upper) node
      (fun entries node' => node' = node ∧ entries = w.entries.filter fun entry =>
        lower.starts entry.index && upper.ends entry.index) (Fails env node) := by
  obtain ⟨start, hstart, hrun, hstarts⟩ := startIndex_eq hlower env node
  obtain ⟨stop, hrun', hends⟩ := endIndex_eq hupper env node
  refine ensures_bind_of_ok hrun (ensures_bind_of_ok hrun'
    (Ensures.bind (ensures_mapFailure (scanRaftLogs_ensures h hstart stop)) (fun _ _ h => h) ?_))
  rintro rows node' ⟨rfl, rfl⟩
  simp only [hstarts, hends]
  unfold Ensures
  rw [decodeEntries_encoded]
  exact ⟨rfl, rfl⟩

/-! ## The state of the log -/

theorem getLastLogIndex_ensures (h : Represents codec node w) : Ensures (getLastLogIndex env) node
      (fun index node' => node' = node ∧ index = w.entries.getLast?.map Entry.index)
      (Fails env node) := by
  refine ensures_bind_of_ok (pinGeneration_of_healthy h.healthy) (ensures_bind (ensures_call
    (fun _ hfault => ⟨rfl, hfault⟩) ?_))
  refine ⟨rfl, ?_⟩
  rw [h.log_eq, getLast?_map]
  cases hlast : w.entries.getLast? with
  | none => rfl
  | some entry =>
    have hentry : entry ∈ w.entries := mem_of_getLast? hlast
    have hword := (h.valid.index_lt hentry).2.trans_le h.valid.next_le
    simp only [Option.map_some, row, toText_logKey, Option.bind_some, trim_padded,
      parse_logKey hword]

theorem getRaftLog_ensures (h : Represents codec node w) {entry : Entry P}
    (hentry : entry ∈ w.entries) : Ensures (getRaftLog env entry.index) node
      (fun bytes node' => node' = node ∧ bytes = some (codec.encode entry)) (Fails env node) := by
  refine ensures_bind_of_ok (pinGeneration_of_healthy h.healthy) (ensures_bind (ensures_call
    (fun _ hfault => ⟨rfl, hfault⟩) ?_))
  refine ⟨rfl, (node.generation.raftLog.mem_entries_iff).1 ?_⟩
  rw [h.log_eq]
  exact mem_map_of_mem hentry

theorem getLogState_ensures (h : Represents codec node w) : Ensures (getLogState codec env) node
      (fun state node' => node' = node ∧ state = ⟨w.purged, w.lastLogId⟩) (Fails env node) := by
  refine ensures_read ?_
  refine Ensures.bind (ensures_mapFailure (getLastLogIndex_ensures h)) (fun _ _ h => h) ?_
  rintro index node' ⟨rfl, rfl⟩
  unfold LogWindow.lastLogId
  cases hlast : w.entries.getLast? with
  | none => exact ⟨rfl, by rw [h.purged_eq]⟩
  | some entry =>
    have hentry : entry ∈ w.entries := mem_of_getLast? hlast
    refine Ensures.bind (ensures_mapFailure (getRaftLog_ensures h hentry)) (fun _ _ h => h) ?_
    rintro bytes node' ⟨rfl, rfl⟩
    refine okOr_bind (fun hnone => ?_) fun found hfound => ?_
    · rw [codec.decode_encode] at hnone
      cases hnone
    · rw [codec.decode_encode] at hfound
      cases hfound
      exact ⟨rfl, by rw [h.purged_eq]⟩

/-! ## Runs -/

inductive LogOp (P : Type)
  | append (entries : List (Entry P))
  | truncate (logId : LogId)
  | purge (logId : LogId)
  | read (lower upper : Bound)
  | logState

inductive LogAnswer (P : Type)
  | done
  | entries (entries : List (Entry P))
  | state (state : LogState)

def LogOp.run (codec : EntryCodec P) (env : RaftEnv) : LogOp P → StoreM F (LogAnswer P)
  | append entries => do
      Beryl.append codec env entries
      pure .done
  | truncate logId => do
      Beryl.truncate env logId
      pure .done
  | purge logId => do
      Beryl.purge env logId
      pure .done
  | read lower upper => do
      let entries ← tryGetLogEntries codec env lower upper
      pure (.entries entries)
  | logState => do
      let state ← getLogState codec env
      pure (.state state)

def LogWindow.Answers (w : LogWindow P) : LogOp P → LogAnswer P → LogWindow P → Prop
  | .append added, .done, w' => w' = ⟨w.purged, w.entries ++ added⟩
  | .truncate logId, .done, w' =>
    w' = ⟨w.purged, w.entries.filter fun entry => entry.index < logId.index⟩
  | .purge logId, .done, w' =>
    w' = ⟨some logId, w.entries.filter fun entry => logId.index < entry.index⟩
  | .read lower upper, .entries found, w' => w' = w ∧ found = w.entries.filter fun entry =>
    lower.starts entry.index && upper.ends entry.index
  | .logState, .state state, w' => w' = w ∧ state = ⟨w.purged, w.lastLogId⟩
  | _, _, _ => False

/-- Appends go on where the log ends, purges do not go back, indexes are machine words and
so are the successors of range bounds that need one. -/
def LogWindow.Admits (w : LogWindow P) : LogOp P → Prop
  | .append added => added.map Entry.index = List.range' w.next added.length ∧
      w.next + added.length ≤ 2 ^ 64
  | .truncate logId => logId.index < 2 ^ 64
  | .purge logId => logId.index < 2 ^ 64 ∧ ∀ purged ∈ w.purged, purged.index ≤ logId.index
  | .read lower upper => lower.FitsBelow ∧ upper.FitsAbove
  | .logState => True

theorem purge_ensures (h : Represents codec node w) {logId : LogId}
    (hindex : logId.index < 2 ^ 64) (hpurged : ∀ purged ∈ w.purged, purged.index ≤ logId.index) :
    Ensures (purge env logId) node (fun _ node' => Represents codec node'
        ⟨some logId, w.entries.filter fun entry => logId.index < entry.index⟩)
      (Fails env node) := by
  have hfirst : w.first ≤ logId.index + 1 := by
    unfold LogWindow.first
    split
    · exact Nat.zero_le _
    next purged hsome => exact Nat.succ_le_succ (hpurged purged hsome)
  have hnow : deferPurge logId node = (.ok false, node) := by
    refine current_bind.trans ?_
    simp only [h.idle]
    rfl
  have hpin : mapFailure (storageError .writeLogs) pinGeneration node =
      (.ok node.generation, node) := by
    simp only [mapFailure, pinGeneration_of_healthy h.healthy]
  refine ensures_bind_of_ok hnow (ensures_bind_of_ok hpin (ensures_read ?_))
  refine Ensures.bind (ensures_mapFailure (purgeRaftLogsAndState_ensures h hindex hfirst _))
    (fun _ _ h => h) fun _ node' h' => ?_
  exact h' _ rfl

theorem LogOp.run_ensures (h : Represents codec node w) (op : LogOp P) (hop : w.Admits op) :
    Ensures (op.run codec env) node
      (fun answer node' => ∃ w', Represents codec node' w' ∧ w.Answers op answer w')
      (Fails env node) := by
  cases op with
  | append added =>
    refine ensures_bind (ensures_bind ((encodeEntries_ensures codec added node).mono ?_
      fun _ _ h => h))
    rintro _ _ ⟨rfl, rfl⟩
    exact ensures_mapFailure ((appendRaftLogsDurable_ensures h hop.1 hop.2).mono
      (fun _ _ h' => ⟨_, h', rfl⟩) fun _ _ h => h)
  | truncate =>
    exact ensures_bind (ensures_mapFailure ((truncateRaftLogs_ensures h hop).mono
      (fun _ _ h' => ⟨_, h', rfl⟩) fun _ _ h => h))
  | purge => exact ensures_bind ((purge_ensures h hop.1 hop.2).mono
      (fun _ _ h' => ⟨_, h', rfl⟩) fun _ _ h => h)
  | read =>
    refine ensures_bind ((tryGetLogEntries_ensures h hop.1 hop.2).mono ?_ fun _ _ h => h)
    rintro found _ ⟨rfl, rfl⟩
    exact ⟨w, h, rfl, rfl⟩
  | logState =>
    refine ensures_bind ((getLogState_ensures h).mono ?_ fun _ _ h => h)
    rintro state _ ⟨rfl, rfl⟩
    exact ⟨w, h, rfl, rfl⟩

structure LogCall (P : Type) where
  op : LogOp P
  env : RaftEnv
  outcome : Except StoreFailure (LogAnswer P)

def Calls (codec : EntryCodec P) (node : RaftNode F) (c : LogCall P) (node' : RaftNode F) :
    Prop :=
  c.op.run codec c.env node = (c.outcome, node')

/-- A call is one operation on the window, or it has failed and changed nothing. -/
def RefinesWindow (codec : EntryCodec P) (t : Transition (RaftNode F) (LogCall P)) : Prop :=
  ∃ w w', Represents codec t.before w ∧ Represents codec t.after w' ∧
    match t.label.outcome with
    | .ok answer => w.Answers t.label.op answer w'
    | .error _ => t.after = t.before ∧ t.label.env.Faulty

theorem Calls.refines {c : LogCall P} {node' : RaftNode F} (h : Represents codec node w)
    (hop : w.Admits c.op) (hcall : Calls codec node c node') :
    RefinesWindow codec ⟨node, c, node'⟩ ∧ ∃ w', Represents codec node' w' := by
  have hensures : Ensures (c.op.run codec c.env) node _ _ := LogOp.run_ensures h c.op hop
  unfold RefinesWindow
  unfold Calls at hcall
  cases houtcome : c.outcome with
  | ok =>
    rw [houtcome] at hcall
    obtain ⟨w', h', hanswers⟩ := hensures.of_ok hcall
    exact ⟨⟨w, w', h, h', hanswers⟩, w', h'⟩
  | error =>
    rw [houtcome] at hcall
    obtain ⟨rfl, hfaulty⟩ := hensures.of_error hcall
    exact ⟨⟨w, w, h, h, rfl, hfaulty⟩, w, h⟩

/-- Every call of the log store is one operation on a window of entries. -/
theorem log_store_refines_window (codec : EntryCodec P) (start : RaftNode F)
    (hstart : ∃ w, Represents codec start w)
    (past : List (Transition (RaftNode F) (LogCall P))) (node : RaftNode F)
    (hrun : Run (Calls codec) (fun _ node c => ∀ w, Represents codec node w → w.Admits c.op)
      start past node) : (∃ w, Represents codec node w) ∧ ∀ t ∈ past, RefinesWindow codec t := by
  have hwindow : ∀ {past node}, Run (Calls codec)
      (fun _ node c => ∀ w, Represents codec node w → w.Admits c.op) start past node →
      ∃ w, Represents codec node w := by
    intro past node hrun
    refine Run.invariant (P := fun node => ∃ w, Represents codec node w) hrun hstart ?_
    rintro _ _ _ _ _ ⟨w, h⟩ hadmits hcall
    exact (Calls.refines h (hadmits w h) hcall).2
  refine ⟨hwindow hrun, fun t ht => ?_⟩
  obtain ⟨older, hrun', hadmits, hcall⟩ := hrun.of_mem ht
  obtain ⟨w, h⟩ := hwindow hrun'
  exact (Calls.refines h (hadmits w h) hcall).1

/-! ## Runs on a small log -/

def unaryCodec : EntryCodec Unit where
  encode entry := List.replicate
    (Encodable.encode (entry.logId.term, entry.logId.nodeId, entry.logId.index)) 0
  decode bytes := (Encodable.decode bytes.length).map fun (fields : ℕ × ℕ × ℕ) =>
    ⟨⟨fields.1, fields.2.1, fields.2.2⟩, ()⟩
  decode_encode := by
    intro entry
    simp

def LogWindow.Valid.stored {w : LogWindow Unit} (h : w.Valid) : RaftNode Unit where
  generation := ⟨(), ⟨w.entries.map (Entry.row unaryCodec), h.rows_ascending unaryCodec⟩, none,
    none⟩
  memory := ⟨none, w.purged, none, none, ⟨none, [], []⟩⟩
  installs := ⟨none, none⟩
  poisoned := false

theorem LogWindow.Valid.represents {w : LogWindow Unit} (h : w.Valid) :
    Represents unaryCodec h.stored w := ⟨h, rfl, rfl, rfl, rfl⟩

theorem emptyWindow_valid : (⟨none, []⟩ : LogWindow Unit).Valid := ⟨rfl, by decide⟩

def faultless (overflowChecks : Bool) : RaftEnv := ⟨fun _ => none, overflowChecks⟩

def LogOp.faultlessCall (op : LogOp Unit) (node : RaftNode Unit) :
    Transition (RaftNode Unit) (LogCall Unit) :=
  let run := op.run unaryCodec (faultless true) node
  ⟨node, ⟨op, faultless true, run.1⟩, run.2⟩

/-- Three entries are appended, the last one is truncated, and the first one is purged. -/
theorem log_store_refines_window_three_calls :
    let first := LogOp.faultlessCall (.append [⟨⟨1, 1, 0⟩, ()⟩, ⟨⟨1, 1, 1⟩, ()⟩, ⟨⟨1, 1, 2⟩, ()⟩])
      emptyWindow_valid.stored
    let second := LogOp.faultlessCall (.truncate ⟨1, 1, 2⟩) first.after
    let third := LogOp.faultlessCall (.purge ⟨1, 1, 0⟩) second.after
    third.after.generation.raftLog.entries = [row unaryCodec ⟨⟨1, 1, 1⟩, ()⟩] ∧
      (∃ w, Represents unaryCodec third.after w) ∧
      ∀ t ∈ [third, second, first], RefinesWindow unaryCodec t := by
  intro first second third
  refine ⟨by decide +kernel, log_store_refines_window unaryCodec emptyWindow_valid.stored
    ⟨_, emptyWindow_valid.represents⟩ [third, second, first] third.after
    (.next (.next (.next .start ?_ rfl) ?_ rfl) ?_ rfl)⟩
  · intro w h
    have hentries : w.entries = [] := map_eq_nil_iff.1 h.log_eq.symm
    have hpurged : w.purged = none := h.purged_eq.symm
    have hnext : w.next = 0 := by simp [LogWindow.next, LogWindow.first, hentries, hpurged]
    exact ⟨by rw [hnext]; rfl, by rw [hnext]; decide⟩
  · intro w h
    exact (by decide : (2 : ℕ) < 2 ^ 64)
  · intro w h
    have hpurged : none = w.purged := h.purged_eq
    rw [LogWindow.Admits, ← hpurged]
    exact ⟨by decide, nofun⟩

theorem oneEntry_valid : (⟨some ⟨1, 1, 5⟩, [⟨⟨1, 1, 6⟩, ()⟩]⟩ : LogWindow Unit).Valid :=
  ⟨rfl, by decide⟩

/-- A range that includes the last index reads nothing, or stops the node; and a purge
below the purged id leaves a log that begins after its window. -/
theorem log_store_leaves_window :
    ((tryGetLogEntries unaryCodec (faultless false) (.included 0) (.included (2 ^ 64 - 1))
        oneEntry_valid.stored).1 = .ok [] ∧
      (tryGetLogEntries unaryCodec (faultless true) (.included 0) (.included (2 ^ 64 - 1))
        oneEntry_valid.stored).1 = .error (.panicked "attempt to add with overflow")) ∧
    (purge (faultless true) ⟨1, 1, 3⟩ oneEntry_valid.stored).1 = .ok () ∧
      ¬∃ w, Represents unaryCodec (purge (faultless true) ⟨1, 1, 3⟩ oneEntry_valid.stored).2 w := by
  refine ⟨⟨rfl, rfl⟩, rfl, ?_⟩
  rintro ⟨⟨purged, entries⟩, h⟩
  have hpurged : some ⟨1, 1, 3⟩ = purged := h.purged_eq
  have hlog : [row unaryCodec ⟨⟨1, 1, 6⟩, ()⟩] = entries.map (row unaryCodec) := h.log_eq
  subst hpurged
  have hlength : entries.length = 1 := by simpa using (congrArg length hlog).symm
  obtain ⟨entry, rfl⟩ := length_eq_one_iff.1 hlength
  have hindexes : [entry.index] = [4] := h.valid.indexes
  have hkeys : [logKey 6] = [logKey entry.index] := congrArg (map Prod.fst) hlog
  rw [singleton_inj.1 hindexes] at hkeys
  exact absurd (singleton_inj.1 hkeys) (by decide)

/-! ## The protocol state -/

/-- What `load_raft_state` reads. -/
def RaftNode.stored (node : RaftNode F) : AppMetadataRaftState :=
  node.generation.raftState.getD .initial

inductive StateOp
  | saveVote (vote : Vote)
  | saveCommitted (committed : Option LogId)
  | purge (logId : LogId)
  | restart

def StateOp.run (env : RaftEnv) : StateOp → StoreM F Unit
  | saveVote vote => Beryl.saveVote env vote
  | saveCommitted committed => Beryl.saveCommitted env committed
  | purge logId => Beryl.purge env logId
  | restart => update fun node =>
      { node with memory := node.stored, installs := ⟨none, none⟩, poisoned := false }

/-- What a completed call makes of the protocol state; a purge that waits for a snapshot
has not happened yet. -/
def StateOp.next (installs : InstallState) (state : AppMetadataRaftState) :
    StateOp → AppMetadataRaftState
  | saveVote vote => { state with vote := some vote }
  | saveCommitted committed => { state with committed }
  | purge logId =>
    if installs.pendingId.isNone then { state with lastPurgedLogId := some logId } else state
  | restart => state

/-- The protocol state is replaced in memory and on disk, or the call fails and keeps the node. -/
def Replaces (x : StoreM F Unit) (node : RaftNode F) (next : AppMetadataRaftState) : Prop :=
  Ensures x node (fun _ node' => node'.memory = next ∧ node'.stored = next) fun _ node' =>
    node' = node

theorem pinGeneration_ensures {ok : Generation F → RaftNode F → Prop}
    (h : ok node.generation node) : Ensures pinGeneration node ok fun _ node' => node' = node :=
  ensures_bind (ensures_current (failIf_bind (fun _ => rfl) fun _ => h))

theorem saveState_replaces (subject : ErrorSubject)
    (change : AppMetadataRaftState → AppMetadataRaftState) :
    Replaces (saveState env subject change) node (change node.memory) := by
  refine ensures_bind (ensures_mapFailure (pinGeneration_ensures (ensures_bind (ensures_current
    (ensures_bind (ensures_mapFailure (ensures_bind (pinGeneration_ensures ?_))))))))
  exact ensures_bind (ensures_call (fun _ _ => rfl) (ensures_bind (ensures_call (fun _ _ => rfl)
    ⟨rfl, rfl⟩)))

theorem purgeNow_replaces (logId : LogId) : Replaces (purgeNow env logId) node
    { node.memory with lastPurgedLogId := some logId } := by
  refine ensures_bind (ensures_mapFailure (pinGeneration_ensures (ensures_bind (ensures_current
    (ensures_bind (ensures_mapFailure (ensures_bind (pinGeneration_ensures ?_))))))))
  exact ensures_bind (ensures_call (fun _ _ => rfl) (ensures_bind (ensures_call (fun _ _ => rfl)
    (ensures_bind (ensures_call (fun _ _ => rfl) ⟨rfl, rfl⟩)))))

theorem StateOp.run_replaces (h : node.stored = node.memory) (op : StateOp) :
    Replaces (op.run env) node (op.next node.installs node.memory) := by
  cases op with
  | saveVote vote => exact saveState_replaces _ fun state => { state with vote := some vote }
  | saveCommitted committed => exact saveState_replaces _ fun state => { state with committed }
  | purge logId =>
    refine ensures_bind (ensures_read ?_)
    split
    next hnone =>
      simp only [StateOp.next, if_pos hnone]
      exact purgeNow_replaces logId
    next hsome =>
      simp only [StateOp.next, if_neg hsome]
      exact ⟨rfl, h⟩
  | restart => exact ⟨h, h⟩

structure StateCall where
  op : StateOp
  env : RaftEnv
  outcome : Except StoreFailure Unit

/-- Whatever votes, commits, purges and restarts a node takes, and whichever of its storage
calls fail: it holds in memory what it would load, which is made of the calls that completed,
in their order. -/
theorem protocol_state_is_durable {start node : RaftNode F}
    {past : List (Transition (RaftNode F) StateCall)} (hstart : start.stored = start.memory)
    (hrun : Run (fun node c node' => c.op.run c.env node = (c.outcome, node'))
      (fun _ _ _ => True) start past node) :
    node.stored = node.memory ∧
      node.memory = past.foldr (fun t state => match t.label.outcome with
        | .ok () => t.label.op.next t.before.installs state
        | .error _ => state) start.memory := by
  induction hrun with
  | start => exact ⟨hstart, rfl⟩
  | @next past node node' c _ _ hcall ih =>
    obtain ⟨hstored, hmemory⟩ := ih
    have hreplaces : Replaces (c.op.run c.env) node _ := c.op.run_replaces hstored
    rw [foldr_cons, ← hmemory]
    cases houtcome : c.outcome with
    | ok =>
      rw [houtcome] at hcall
      obtain ⟨hmemory', hstored'⟩ := hreplaces.of_ok hcall
      exact ⟨hstored'.trans hmemory'.symm, hmemory'⟩
    | error failure =>
      rw [houtcome] at hcall
      obtain rfl := hreplaces.of_error hcall
      exact ⟨hstored, rfl⟩

/-- The second vote fails, the node restarts, and the first vote is there. -/
theorem protocol_state_is_durable_restarted :
    let fault : RaftEnv := ⟨fun _ => some "", true⟩
    let start := emptyWindow_valid.stored
    let voted := saveVote (faultless true) ⟨1, 1, false⟩ start
    let failed := saveVote fault ⟨2, 2, false⟩ voted.2
    let opened := StateOp.restart.run fault failed.2
    failed.1 ≠ .ok () ∧ opened.2.stored = opened.2.memory ∧
      opened.2.memory.vote = some ⟨1, 1, false⟩ := by
  intro fault start voted failed opened
  have hdurable := @protocol_state_is_durable Unit start opened.2
    [⟨failed.2, ⟨.restart, fault, opened.1⟩, opened.2⟩,
      ⟨voted.2, ⟨.saveVote ⟨2, 2, false⟩, fault, failed.1⟩, failed.2⟩,
      ⟨start, ⟨.saveVote ⟨1, 1, false⟩, faultless true, voted.1⟩, voted.2⟩] rfl
    (.next (.next (.next .start trivial rfl) trivial rfl) trivial rfl)
  exact ⟨nofun, hdurable.1, congrArg _ hdurable.2⟩

end Beryl
