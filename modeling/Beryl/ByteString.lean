import Mathlib.Data.List.Basic
import Mathlib.Data.List.Lex
import Mathlib.Tactic

/-!
# Byte strings

Byte strings in the order in which a key-value store keeps its keys, numbers
written with a fixed number of bytes, most significant first, and how the order of
such numbers is the order of their bytes.
-/

instance linearOrderByte : LinearOrder UInt8 where
  le_refl := UInt8.le_refl
  le_trans _ _ _ := UInt8.le_trans
  le_antisymm _ _ := UInt8.le_antisymm
  le_total := UInt8.le_total
  lt_iff_le_not_ge a b := by
    simp only [UInt8.lt_iff_toNat_lt, UInt8.le_iff_toNat_le]
    omega
  toDecidableLE := inferInstance

abbrev ByteString := List UInt8

namespace ByteString

/-- The lowest `width` bytes of a number, most significant first. -/
def ofNat : ℕ → ℕ → ByteString
  | 0, _ => []
  | width + 1, n => UInt8.ofNat (n / 256 ^ width) :: ofNat width (n % 256 ^ width)

def toNat : ByteString → ℕ
  | [] => 0
  | byte :: rest => byte.toNat * 256 ^ rest.length + toNat rest

@[simp] theorem length_ofNat (width n : ℕ) : (ofNat width n).length = width := by
  induction width generalizing n with
  | zero => rfl
  | succ width ih => simp [ofNat, ih]

theorem toNat_lt (bytes : ByteString) : bytes.toNat < 256 ^ bytes.length := by
  induction bytes with
  | nil => simp [toNat]
  | cons byte rest ih =>
    have hbyte : byte.toNat + 1 ≤ 256 := byte.toNat_lt
    calc toNat (byte :: rest)
        < byte.toNat * 256 ^ rest.length + 256 ^ rest.length := Nat.add_lt_add_left ih _
      _ = (byte.toNat + 1) * 256 ^ rest.length := (Nat.succ_mul _ _).symm
      _ ≤ 256 * 256 ^ rest.length := Nat.mul_le_mul_right _ hbyte
      _ = 256 ^ (byte :: rest).length := by rw [List.length_cons, pow_succ, mul_comm]

theorem toNat_ofNat {width n : ℕ} (h : n < 256 ^ width) : toNat (ofNat width n) = n := by
  induction width generalizing n with
  | zero =>
    have hzero : n = 0 := by simpa using h
    simp [ofNat, toNat, hzero]
  | succ width ih =>
    have hpos : 0 < 256 ^ width := by positivity
    have hhigh : n / 256 ^ width < 256 := by
      rw [Nat.div_lt_iff_lt_mul hpos, mul_comm, ← pow_succ]
      exact h
    rw [ofNat, toNat, length_ofNat, ih (Nat.mod_lt n hpos), UInt8.toNat_ofNat',
      Nat.mod_eq_of_lt hhigh, mul_comm]
    exact Nat.div_add_mod n _

theorem ofNat_toNat (bytes : ByteString) : ofNat bytes.length bytes.toNat = bytes := by
  induction bytes with
  | nil => rfl
  | cons byte rest ih =>
    have hlt := toNat_lt rest
    have hpos : 0 < 256 ^ rest.length := by positivity
    rw [List.length_cons, ofNat, toNat, Nat.mul_comm, Nat.mul_add_div hpos, Nat.div_eq_of_lt hlt,
      Nat.mul_add_mod, Nat.mod_eq_of_lt hlt, ih, Nat.add_zero, UInt8.ofNat_toNat]

theorem ofNat_inj {width n m : ℕ} (hn : n < 256 ^ width) (hm : m < 256 ^ width) :
    ofNat width n = ofNat width m ↔ n = m := by
  constructor
  · intro h
    rw [← toNat_ofNat hn, h, toNat_ofNat hm]
  · rintro rfl
    rfl

theorem append_lt_append_left {before left right : ByteString} :
    before ++ left < before ++ right ↔ left < right := by
  induction before with
  | nil => rfl
  | cons byte rest ih => simp [ih]

theorem append_lt_append_iff {left right left' right' : ByteString}
    (hlength : left.length = right.length) :
    left ++ left' < right ++ right' ↔ left < right ∨ (left = right ∧ left' < right') := by
  induction left generalizing right with
  | nil =>
    have hright : right = [] := List.length_eq_zero_iff.1 hlength.symm
    simp [hright]
  | cons byte rest ih =>
    cases right with
    | nil => simp at hlength
    | cons byte' rest' =>
      have hrest : rest.length = rest'.length := by simpa using hlength
      simp only [List.cons_append, List.cons_lt_cons_iff, ih hrest, List.cons.injEq]
      tauto

theorem lt_iff_toNat_lt {left right : ByteString} (hlength : left.length = right.length) :
    left < right ↔ left.toNat < right.toNat := by
  induction left generalizing right with
  | nil =>
    have hright : right = [] := List.length_eq_zero_iff.1 hlength.symm
    simp [hright, toNat]
  | cons byte rest ih =>
    cases right with
    | nil => simp at hlength
    | cons byte' rest' =>
      have hrest : rest.length = rest'.length := by simpa using hlength
      have hleft := toNat_lt rest
      have hright := toNat_lt rest'
      rw [← hrest] at hright
      rw [List.cons_lt_cons_iff, ih hrest, toNat, toNat, ← hrest, UInt8.lt_iff_toNat_lt,
        ← UInt8.toNat_inj]
      rcases lt_trichotomy byte.toNat byte'.toNat with hlt | heq | hgt
      · have hmul := Nat.mul_le_mul_right (256 ^ rest.length) (Nat.succ_le_of_lt hlt)
        rw [Nat.succ_mul] at hmul
        simp only [hlt, true_or, true_iff]
        omega
      · simp [heq]
      · have hmul := Nat.mul_le_mul_right (256 ^ rest.length) (Nat.succ_le_of_lt hgt)
        rw [Nat.succ_mul] at hmul
        have hne : byte.toNat ≠ byte'.toNat := hgt.ne'
        simp only [hgt.not_gt, hne, false_and, or_false, false_iff]
        omega

theorem ofNat_lt_ofNat {width n m : ℕ} (hn : n < 256 ^ width) (hm : m < 256 ^ width) :
    ofNat width n < ofNat width m ↔ n < m := by
  rw [lt_iff_toNat_lt (by simp), toNat_ofNat hn, toNat_ofNat hm]

def ofString (text : String) : ByteString := text.toUTF8.data.toList

@[simp] theorem length_ofString (text : String) : (ofString text).length = text.utf8ByteSize :=
  rfl

theorem ofString_append (left right : String) :
    ofString (left ++ right) = ofString left ++ ofString right := by
  unfold ofString
  rw [String.toUTF8_eq_toByteArray, String.toByteArray_append, ByteArray.data_append,
    Array.toList_append]
  rfl

theorem ofString_inj {left right : String} : ofString left = ofString right ↔ left = right := by
  constructor
  · intro h
    have hdata : left.toUTF8.data = right.toUTF8.data := Array.toList_inj.1 h
    exact String.toByteArray_inj.1 (ByteArray.ext hdata)
  · rintro rfl
    rfl

/-- `std::str::from_utf8`. -/
def toText (bytes : ByteString) : Option String := String.fromUTF8? ⟨bytes.toArray⟩

theorem toText_eq_some {bytes : ByteString} {text : String} :
    toText bytes = some text ↔ bytes = ofString text := by
  unfold toText String.fromUTF8? ofString
  constructor
  · intro h
    split at h
    next hvalid =>
      cases h
      rfl
    next => cases h
  · rintro rfl
    rw [Array.toArray_toList]
    exact dif_pos text.isValidUTF8

/-- What a forward scan of `keys` from `start` meets first. -/
def Seeks (keys : List ByteString) (start : ByteString) : Option ByteString → Prop
  | none => ∀ key ∈ keys, key < start
  | some found => found ∈ keys ∧ start ≤ found ∧ ∀ key ∈ keys, start ≤ key → found ≤ key

theorem le_of_begins {start key : ByteString} (h : start <+: key) : start ≤ key := by
  obtain ⟨rest, rfl⟩ := h
  refine not_lt.1 fun hlt => ?_
  rw [← List.append_nil start, List.append_assoc, append_lt_append_left] at hlt
  exact absurd hlt (by simp)

/-- A key after `start` that does not begin with it is after all that do. -/
theorem append_lt_of_le {start key : ByteString} (hle : start ≤ key)
    (hbegins : ¬start <+: key) (rest : ByteString) : start ++ rest < key := by
  induction start generalizing key with
  | nil => exact absurd List.nil_prefix hbegins
  | cons byte start ih =>
    cases key with
    | nil => exact absurd (List.nil_lt_cons byte start) (not_lt.2 hle)
    | cons =>
      have hnot := not_lt.2 hle
      rw [List.cons_lt_cons_iff, not_or, not_and] at hnot
      rw [List.cons_append, List.cons_lt_cons_iff]
      rcases (not_lt.1 hnot.1).lt_or_eq with hlt | heq
      · exact .inl hlt
      · refine .inr ⟨heq, ih (not_lt.1 (hnot.2 heq.symm)) fun hkey => hbegins ?_⟩
        exact List.cons_prefix_cons.2 ⟨heq, hkey⟩

/-- A scan from `start` meets the least key that begins with it, if there is one. -/
theorem Seeks.eq_least {keys : List ByteString} {start least : ByteString}
    {found : Option ByteString} (h : Seeks keys start found) (hmem : least ∈ keys)
    (hbegins : start <+: least)
    (hleast : ∀ key ∈ keys, start <+: key → least ≤ key) : found = some least := by
  have hle := le_of_begins hbegins
  cases found with
  | none => exact absurd (h least hmem) (not_lt.2 hle)
  | some key =>
    obtain ⟨hkey, hstart, hfirst⟩ := h
    have hfound := hfirst least hmem hle
    by_cases hkeyBegins : start <+: key
    · rw [le_antisymm hfound (hleast key hkey hkeyBegins)]
    · obtain ⟨rest, rfl⟩ := hbegins
      exact absurd (append_lt_of_le hstart hkeyBegins rest) (not_lt.2 hfound)

end ByteString
