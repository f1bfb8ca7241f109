import Beryl.ByteString

/-!
# Zero-padded decimal numbers

Numbers as decimal text of a fixed width, and the parser that reads an unsigned
machine word back.  Texts of one width are ordered, byte by byte, as their numbers are,
which is what makes them usable as keys of an ordered store.
-/

namespace Decimal

def digit (n : ℕ) : Char := Char.ofNat (48 + n)

/-- The last `width` decimal digits of a number, with leading zeros. -/
def padded : ℕ → ℕ → String
  | 0, _ => ""
  | width + 1, n => padded width (n / 10) ++ String.singleton (digit (n % 10))

/-- The digit loop of `u64::from_str`, without its sign. -/
def parseDigits : ByteString → ℕ → Option ℕ
  | [], value => some value
  | byte :: rest, value =>
    if 48 ≤ byte.toNat ∧ byte.toNat ≤ 57 then
      let next := value * 10 + (byte.toNat - 48)
      if next < 2 ^ 64 then parseDigits rest next else none
    else none

/-- `str::parse::<u64>`: one `+` may stand in front, and at least one digit is needed. -/
def parseU64 (text : String) : Option ℕ :=
  match ByteString.ofString text with
  | [] => none
  | 43 :: rest => if rest = [] then none else parseDigits rest 0
  | bytes => parseDigits bytes 0

theorem ofString_digit {n : ℕ} (h : n < 10) :
    ByteString.ofString (String.singleton (digit n)) = [UInt8.ofNat (48 + n)] := by
  interval_cases n <;> decide

theorem toNat_digit {n : ℕ} (h : n < 10) : (UInt8.ofNat (48 + n)).toNat = 48 + n := by
  interval_cases n <;> decide

theorem ofString_padded_succ (width n : ℕ) : ByteString.ofString (padded (width + 1) n) =
      ByteString.ofString (padded width (n / 10)) ++ [UInt8.ofNat (48 + n % 10)] := by
  rw [padded, ByteString.ofString_append, ofString_digit (Nat.mod_lt _ (by decide))]

theorem length_ofString_padded (width : ℕ) :
    ∀ n, (ByteString.ofString (padded width n)).length = width := by
  induction width with
  | zero => exact fun _ => rfl
  | succ width ih =>
    intro n
    rw [ofString_padded_succ, List.length_append, ih]
    rfl

theorem ofString_padded_lt {width : ℕ} : ∀ {n m : ℕ}, n < 10 ^ width → m < 10 ^ width →
      (ByteString.ofString (padded width n) < ByteString.ofString (padded width m) ↔ n < m) := by
  induction width with
  | zero =>
    intro n m hn hm
    have hn' : n = 0 := by simpa using hn
    have hm' : m = 0 := by simpa using hm
    simp [hn', hm', padded]
  | succ width ih =>
    intro n m hn hm
    have hn' : n / 10 < 10 ^ width := by omega
    have hm' : m / 10 < 10 ^ width := by omega
    have hmod : ∀ k : ℕ, k % 10 < 10 := fun k => Nat.mod_lt k (by decide)
    rw [ofString_padded_succ, ofString_padded_succ, ByteString.append_lt_append_iff
      (by rw [length_ofString_padded, length_ofString_padded]), ih hn' hm']
    have heq : ByteString.ofString (padded width (n / 10)) =
        ByteString.ofString (padded width (m / 10)) ↔ n / 10 = m / 10 := by
      constructor
      · intro h
        have hlt := (ih hn' hm').not.1 (by rw [h]; exact lt_irrefl _)
        have hgt := (ih hm' hn').not.1 (by rw [h]; exact lt_irrefl _)
        omega
      · intro h
        rw [h]
    have hlast : [UInt8.ofNat (48 + n % 10)] < [UInt8.ofNat (48 + m % 10)] ↔ n % 10 < m % 10 := by
      rw [List.cons_lt_cons_iff, UInt8.lt_iff_toNat_lt, toNat_digit (hmod n), toNat_digit (hmod m)]
      simp
    rw [heq, hlast]
    omega

theorem parseDigits_append (front back : ByteString) :
    ∀ value, parseDigits (front ++ back) value = (parseDigits front value).bind
      (parseDigits back) := by
  induction front with
  | nil => exact fun _ => rfl
  | cons byte front ih =>
    intro value
    simp only [List.cons_append, parseDigits]
    split
    · split
      · exact ih _
      · rfl
    · rfl

theorem parseDigits_padded {width : ℕ} : ∀ {n : ℕ}, n < 10 ^ width → n < 2 ^ 64 →
      parseDigits (ByteString.ofString (padded width n)) 0 = some n := by
  induction width with
  | zero =>
    intro n hn _
    have hn' : n = 0 := by simpa using hn
    rw [hn']
    rfl
  | succ width ih =>
    intro n hn hword
    have hmod : n % 10 < 10 := Nat.mod_lt _ (by decide)
    rw [ofString_padded_succ, parseDigits_append, ih (by omega) (by omega), Option.bind_some]
    simp only [parseDigits, toNat_digit hmod]
    rw [if_pos (by omega), if_pos (by omega)]
    congr 1
    omega

theorem parseU64_padded {width n : ℕ} (hn : n < 10 ^ (width + 1)) (hword : n < 2 ^ 64) :
    parseU64 (padded (width + 1) n) = some n := by
  have hparse := parseDigits_padded hn hword
  unfold parseU64
  split
  next hnil =>
    have hlength := length_ofString_padded (width + 1) n
    rw [hnil] at hlength
    cases hlength
  next rest hplus =>
    rw [hplus] at hparse
    simp [parseDigits] at hparse
  next => exact hparse

theorem mem_padded {width : ℕ} :
    ∀ {n : ℕ} {c : Char}, c ∈ (padded width n).toList → ∃ d < 10, c = digit d := by
  induction width with
  | zero =>
    intro n c hc
    cases hc
  | succ width ih =>
    intro n c hc
    rw [padded, String.toList_append, List.mem_append] at hc
    rcases hc with hc | hc
    · exact ih hc
    · exact ⟨n % 10, Nat.mod_lt _ (by decide), by simpa using hc⟩

end Decimal
