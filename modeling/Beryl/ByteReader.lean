import Beryl.ByteString
import Beryl.Transaction

/-!
# Readers of byte strings

A reader takes bytes off the front of its input, remembers what it has taken, and
hands values on to a sink.  `Reads p spec` says exactly when `p` succeeds: the input
starts with bytes that `spec` relates to the result and to the change of the sink.
The rules below build such a specification along the program, so completeness and
canonicity of a format come out of one derivation.
-/

open Transaction

/-- The input that is left, the input that was taken, and the sink. -/
structure ByteReader (σ : Type) where
  inner : ByteString
  taken : ByteString
  sink : σ

namespace ByteReader

variable {σ ε α β : Type}

/-- `p` succeeds exactly on the bytes that `spec` allows. -/
def Reads (p : Transaction (ByteReader σ) ε α) (spec : ByteString → σ → α → σ → Prop) :
    Prop :=
  ∀ r value r', p r = (.ok value, r') ↔ ∃ bytes, r.inner = bytes ++ r'.inner ∧
    r'.taken = r.taken ++ bytes ∧ spec bytes r.sink value r'.sink

/-- The next `count` bytes. -/
def take (eof : ε) (count : ℕ) : Transaction (ByteReader σ) ε ByteString := fun r =>
  if count ≤ r.inner.length then
    (.ok (r.inner.take count), ⟨r.inner.drop count, r.taken ++ r.inner.take count, r.sink⟩)
  else (.error eof, r)

/-- A number spelled in the next `width` bytes. -/
def takeNat (eof : ε) (width : ℕ) : Transaction (ByteReader σ) ε ℕ := do
  let bytes ← take eof width
  pure bytes.toNat

def looping (body : ℕ → Transaction (ByteReader σ) ε α) : Transaction (ByteReader σ) ε α :=
  fun r => body r.inner.length r

def hand (give : σ → Except ε σ) : Transaction (ByteReader σ) ε Unit := fun r =>
  match give r.sink with
  | .ok sink => (.ok (), { r with sink })
  | .error failure => (.error failure, r)

variable {spec spec' : ByteString → σ → α → σ → Prop} {p : Transaction (ByteReader σ) ε α}

theorem Reads.congr (h : Reads p spec)
    (hspec : ∀ bytes s value s', spec bytes s value s' ↔ spec' bytes s value s') :
    Reads p spec' := by
  intro r value r'
  simp only [h r value r', hspec]

theorem reads_pure {result : α} : Reads (pure result : Transaction (ByteReader σ) ε α)
      fun bytes s value s' => bytes = [] ∧ value = result ∧ s' = s := by
  rintro ⟨inner, taken, sink⟩ value ⟨inner', taken', sink'⟩
  constructor
  · intro h
    cases h
    exact ⟨[], rfl, (List.append_nil _).symm, rfl, rfl, rfl⟩
  · rintro ⟨bytes, hinner, htaken, rfl, rfl, hsink⟩
    simp only [List.nil_append, List.append_nil] at hinner htaken hsink
    rw [hinner, htaken, hsink]
    rfl

theorem reads_bind {p : Transaction (ByteReader σ) ε β}
    {f : β → Transaction (ByteReader σ) ε α} {spec : ByteString → σ → β → σ → Prop}
    {next : β → ByteString → σ → α → σ → Prop} (hp : Reads p spec)
    (hf : ∀ value, (∃ bytes s s', spec bytes s value s') → Reads (f value) (next value)) :
    Reads (p >>= f) fun bytes s value s'' => ∃ front back mid s', bytes = front ++ back ∧
      spec front s mid s' ∧ next mid back s' value s'' := by
  intro r value r''
  constructor
  · intro h
    obtain ⟨mid, r', hmid, hrest⟩ := bind_eq_ok h
    obtain ⟨front, hinner, htaken, hspec⟩ := (hp r mid r').1 hmid
    obtain ⟨back, hinner', htaken', hnext⟩ := (hf mid ⟨_, _, _, hspec⟩ r' value r'').1 hrest
    refine ⟨front ++ back, ?_, ?_, front, back, mid, r'.sink, rfl, hspec, hnext⟩
    · rw [hinner, hinner', List.append_assoc]
    · rw [htaken', htaken, List.append_assoc]
  · rintro ⟨_, hinner, htaken, front, back, mid, s', rfl, hspec, hnext⟩
    rw [List.append_assoc] at hinner
    have hmid : p r = (.ok mid, ⟨back ++ r''.inner, r.taken ++ front, s'⟩) :=
      (hp _ _ _).2 ⟨front, hinner, rfl, hspec⟩
    refine (bind_of_ok hmid).trans ((hf mid ⟨_, _, _, hspec⟩ _ _ _).2 ⟨back, rfl, ?_, hnext⟩)
    rw [htaken, List.append_assoc]

variable {f : β → Transaction (ByteReader σ) ε α} {next : β → ByteString → σ → α → σ → Prop}
  {condition : Prop} {failure : ε}

theorem reads_failIf_bind [Decidable condition]
    {f : Unit → Transaction (ByteReader σ) ε α} {next : ByteString → σ → α → σ → Prop}
    (hf : Reads (f ()) next) : Reads (failIf condition failure >>= f)
      fun bytes s value s' => ¬condition ∧ next bytes s value s' := by
  intro r value r'
  by_cases h : condition
  · have hfails : (failIf condition failure >>= f) r = (.error failure, r) := by
      unfold failIf
      rw [if_pos h]
      rfl
    rw [hfails]
    simp [h]
  · have hpasses : (failIf condition failure >>= f) r = f () r := by
      unfold failIf
      rw [if_neg h]
      rfl
    rw [hpasses, hf r value r']
    simp [h]

theorem reads_okOr_bind {found : Option β}
    (hf : ∀ value, Reads (f value) (next value)) : Reads (okOr found failure >>= f)
      fun bytes s value s' => ∃ x, found = some x ∧ next x bytes s value s' := by
  intro r value r'
  cases found with
  | none =>
    have hfails : (okOr none failure >>= f) r = (.error failure, r) := rfl
    rw [hfails]
    simp
  | some x =>
    have hpasses : (okOr (some x) failure >>= f) r = f x r := rfl
    rw [hpasses, hf x r value r']
    simp

theorem reads_lift_bind {result : Except ε β} (hf : ∀ value, Reads (f value) (next value)) :
    Reads (lift result >>= f)
      fun bytes s value s' => ∃ x, result = .ok x ∧ next x bytes s value s' := by
  intro r value r'
  cases result with
  | error failure =>
    have hfails : (lift (.error failure) >>= f) r = (.error failure, r) := rfl
    rw [hfails]
    simp
  | ok x =>
    have hpasses : (lift (.ok x) >>= f) r = f x r := rfl
    rw [hpasses, hf x r value r']
    simp

variable {eof : ε}

theorem reads_take {count : ℕ} : Reads (take eof count : Transaction (ByteReader σ) ε ByteString)
      fun bytes s value s' => bytes.length = count ∧ value = bytes ∧ s' = s := by
  rintro ⟨inner, taken, sink⟩ value ⟨inner', taken', sink'⟩
  unfold take
  constructor
  · intro h
    split at h
    next hle =>
      cases h
      exact ⟨inner.take count, (List.take_append_drop _ _).symm, rfl, List.length_take_of_le hle,
        rfl, rfl⟩
    next => cases h
  · rintro ⟨bytes, hinner, htaken, rfl, rfl, rfl⟩
    simp only at hinner htaken
    subst hinner htaken
    simp

theorem reads_take_bind {count : ℕ} {f : ByteString → Transaction (ByteReader σ) ε α}
    {next : ByteString → ByteString → σ → α → σ → Prop}
    (hf : ∀ value, Reads (f value) (next value)) :
    Reads (take eof count >>= f) fun bytes s value s' => ∃ front back,
      bytes = front ++ back ∧ front.length = count ∧ next front back s value s' := by
  refine (reads_bind reads_take fun value _ => hf value).congr fun bytes s value s' => ?_
  constructor
  · rintro ⟨front, back, mid, s₁, rfl, ⟨rfl, rfl, rfl⟩, hnext⟩
    exact ⟨_, back, rfl, rfl, hnext⟩
  · rintro ⟨front, back, rfl, rfl, hnext⟩
    exact ⟨front, back, front, s, rfl, ⟨rfl, rfl, rfl⟩, hnext⟩

theorem reads_takeNat_bind {width : ℕ} {f : ℕ → Transaction (ByteReader σ) ε α}
    {next : ℕ → ByteString → σ → α → σ → Prop} (hf : ∀ value, Reads (f value) (next value)) :
    Reads (takeNat eof width >>= f) fun bytes s value s' => ∃ n back,
      bytes = .ofNat width n ++ back ∧ n < 256 ^ width ∧ next n back s value s' := by
  refine (reads_bind (reads_take_bind fun _ => reads_pure) fun value _ => hf value).congr
    fun bytes s value s' => ?_
  constructor
  · rintro ⟨_, back, mid, s₁, rfl, ⟨front, _, rfl, rfl, rfl, rfl, rfl⟩, hnext⟩
    refine ⟨_, back, ?_, ByteString.toNat_lt _, hnext⟩
    rw [List.append_nil, ByteString.ofNat_toNat]
  · rintro ⟨n, back, rfl, hlt, hnext⟩
    exact ⟨_, back, n, s, rfl, ⟨_, [], (List.append_nil _).symm, ByteString.length_ofNat _ _, rfl,
      (ByteString.toNat_ofNat hlt).symm, rfl⟩, hnext⟩

theorem reads_hand_bind {give : σ → Except ε σ} {f : Unit → Transaction (ByteReader σ) ε α}
    {next : ByteString → σ → α → σ → Prop} (hf : Reads (f ()) next) :
    Reads (hand give >>= f) fun bytes s value s'' => ∃ s', give s = .ok s' ∧
      next bytes s' value s'' := by
  rintro ⟨inner, taken, sink⟩ value r'
  cases hgive : give sink with
  | error failure =>
    have hfails : (hand give >>= f) ⟨inner, taken, sink⟩ =
        (.error failure, ⟨inner, taken, sink⟩) := by
      simp only [Bind.bind, hand, hgive]
    rw [hfails]
    simp [hgive]
  | ok given =>
    have hpasses : (hand give >>= f) ⟨inner, taken, sink⟩ = f () ⟨inner, taken, given⟩ := by
      simp only [Bind.bind, hand, hgive]
    rw [hpasses, hf _ value r']
    simp [hgive]

theorem reads_fail :
    Reads (fail failure : Transaction (ByteReader σ) ε α) fun _ _ _ _ => False := by
  intro r value r'
  simp [fail]

theorem reads_ite [Decidable condition] {p q : Transaction (ByteReader σ) ε α}
    (hp : condition → Reads p spec) (hq : ¬condition → Reads q spec') :
    Reads (if condition then p else q) fun bytes s value s' =>
      (condition ∧ spec bytes s value s') ∨ (¬condition ∧ spec' bytes s value s') := by
  by_cases h : condition
  · rw [if_pos h]
    exact (hp h).congr fun bytes s value s' => by simp [h]
  · rw [if_neg h]
    exact (hq h).congr fun bytes s value s' => by simp [h]

theorem reads_failIf [Decidable condition] :
    Reads (failIf condition failure : Transaction (ByteReader σ) ε Unit)
      fun bytes s _ s' => ¬condition ∧ bytes = [] ∧ s' = s := by
  refine (reads_ite (fun _ => reads_fail) fun _ => reads_pure).congr fun bytes s value s' => ?_
  simp

theorem Reads.unique
    {spec : ByteString → σ → α → σ → Prop} (h : Reads p spec) {bytes bytes' : ByteString}
    {s s₁ s₂ : σ} {value value' : α} (hspec : spec bytes s value s₁)
    (hspec' : spec bytes' s value' s₂) {rest rest' : ByteString}
    (heq : bytes ++ rest = bytes' ++ rest') : value = value' := by
  have hrun := (h ⟨bytes ++ rest, [], s⟩ value ⟨rest, bytes, s₁⟩).2 ⟨bytes, rfl, rfl, hspec⟩
  have hrun' := (h ⟨bytes ++ rest, [], s⟩ value' ⟨rest', bytes', s₂⟩).2 ⟨bytes', heq, rfl, hspec'⟩
  rw [hrun] at hrun'
  exact Except.ok.inj (Prod.mk.inj hrun').1

theorem reads_looping {body : ℕ → Transaction (ByteReader σ) ε α}
    {spec : ℕ → ByteString → σ → α → σ → Prop}
    (h : ∀ fuel, Reads (body fuel) fun bytes s value s' =>
      ∃ turns ≤ fuel, spec turns bytes s value s')
    (hturns : ∀ {turns bytes s value s'}, spec turns bytes s value s' → turns ≤ bytes.length) :
    Reads (looping body) fun bytes s value s' => ∃ turns, spec turns bytes s value s' := by
  intro r value r'
  refine (h r.inner.length r value r').trans (exists_congr fun bytes => ?_)
  constructor
  · rintro ⟨hinner, htaken, turns, _, hspec⟩
    exact ⟨hinner, htaken, turns, hspec⟩
  · rintro ⟨hinner, htaken, turns, hspec⟩
    refine ⟨hinner, htaken, turns, (hturns hspec).trans ?_, hspec⟩
    rw [hinner, List.length_append]
    exact Nat.le_add_right _ _

end ByteReader
