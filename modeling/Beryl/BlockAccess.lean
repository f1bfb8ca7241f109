import Beryl.History
import Beryl.WorkerReports

/-!
# Access to the blocks of a worker

A reader or writer pins its block; a reclaim first closes the block to new pins and then
waits until the pins taken before are gone.  Every method takes the lock of the registry once,
so a run is an interleaving of whole methods.  What is modelled beside the registry are the
values its callers hold: a pin with its clones, and a permit of `reclaim_block`, which is
completed only after it has waited for the pins, and may be dropped at any time.
-/

namespace Beryl

open HashMap

/-! ## Errors of a worker -/

inductive WorkerErrorKind
  | blockLocationUnavailable
deriving DecidableEq

inductive WorkerError
  | unavailable (message : String)
  | refreshMetadata (kind : WorkerErrorKind) (message : String)
deriving DecidableEq

/-! ## The registry -/

structure BlockAccessKey where
  groupName : GroupName
  blockId : BlockId
deriving DecidableEq

inductive BlockAccessState
  | available (pins : ℕ)
  | reclaiming (pins : ℕ) (operationActive : Bool)
deriving DecidableEq

abbrev AccessStates := HashMap BlockAccessKey BlockAccessState

/-- A method of the registry; one that fails leaves the states as they are. -/
abbrev AccessResult := Except (Exit WorkerError) AccessStates

def usizeMax : ℕ := 2 ^ 64 - 1

namespace AccessStates

def pinBlock (states : AccessStates) (key : BlockAccessKey) : AccessResult :=
  match states.lookup key with
  | some (.available pins) =>
    if pins = usizeMax then .error (.panicked "block read pin count overflow")
    else .ok (states.insert key (.available (pins + 1)))
  | some (.reclaiming _ _) =>
    .error (.refused (.refreshMetadata .blockLocationUnavailable
      s!"local block reclamation has started: group_name={key.groupName.asStr}, block_id={key.blockId.display}"))
  | none => .ok (states.insert key (.available 1))

def beginReclaim (states : AccessStates) (key : BlockAccessKey) : AccessResult :=
  match states.lookup key with
  | some (.available pins) => .ok (states.insert key (.reclaiming pins true))
  | some (.reclaiming _ true) =>
    .error (.refused (.unavailable "local block reclamation is already running"))
  | some (.reclaiming pins false) => .ok (states.insert key (.reclaiming pins true))
  | none => .ok (states.insert key (.reclaiming 0 true))

def releasePin (states : AccessStates) (key : BlockAccessKey) : AccessResult :=
  match states.lookup key with
  | some (.available 0) => .error (.panicked "available block read pin underflow")
  | some (.available (pins + 1)) =>
    .ok (if pins = 0 then states.erase key else states.insert key (.available pins))
  | some (.reclaiming 0 _) => .error (.panicked "reclaiming block read pin underflow")
  | some (.reclaiming (pins + 1) operationActive) =>
    .ok (states.insert key (.reclaiming pins operationActive))
  | none => .ok states

def releaseReclaimOperation (states : AccessStates) (key : BlockAccessKey) : AccessStates :=
  match states.lookup key with
  | some (.reclaiming pins _) => states.insert key (.reclaiming pins false)
  | _ => states

def completeReclaim (states : AccessStates) (key : BlockAccessKey) : AccessResult :=
  match states.lookup key with
  | some (.reclaiming 0 _) => .ok (states.erase key)
  | some (.reclaiming (pins + 1) _) =>
    .error (.panicked s!"completed block reclamation with {pins + 1} active access pins")
  | _ => .ok states

def pinsToWaitFor (states : AccessStates) (key : BlockAccessKey) : ℕ :=
  match states.lookup key with
  | some (.reclaiming pins _) => pins
  | _ => 0

def isReclaiming (states : AccessStates) (key : BlockAccessKey) : Bool :=
  match states.lookup key with
  | some (.reclaiming _ _) => true
  | _ => false

end AccessStates

/-! ## The values of its callers -/

/-- A pin that has not been released, with the number of its clones. -/
structure LivePin where
  key : BlockAccessKey
  handles : ℕ
deriving DecidableEq

structure LivePermit where
  key : BlockAccessKey
  waited : Bool
deriving DecidableEq

structure AccessWorld where
  states : AccessStates
  pins : HashMap ℕ LivePin
  permits : HashMap ℕ LivePermit

inductive AccessEvent
  | pinBlock (key : BlockAccessKey) (pin : ℕ)
  | clonePin (pin : ℕ)
  | dropPin (pin : ℕ)
  -- the last clone is gone: the destructor of the pin runs
  | releasePin (pin : ℕ)
  | beginReclaim (key : BlockAccessKey) (permit : ℕ)
  -- one pass of the loop
  | waitForPins (permit : ℕ)
  | complete (permit : ℕ)
  | dropPermit (permit : ℕ)

namespace AccessWorld

def new : AccessWorld := ⟨∅, ∅, ∅⟩

/-- What the callers of the registry can do.  Every pin is an allocation, so that there are
fewer of them than addresses. -/
def Enabled (world : AccessWorld) : AccessEvent → Prop
  | .pinBlock _ pin => world.pins.lookup pin = none ∧ world.pins.len < usizeMax
  | .clonePin pin | .dropPin pin => ∃ live, world.pins.lookup pin = some live ∧ 0 < live.handles
  | .releasePin pin => ∃ live, world.pins.lookup pin = some live ∧ live.handles = 0
  | .beginReclaim _ permit => world.permits.lookup permit = none
  | .waitForPins permit | .dropPermit permit => ∃ live, world.permits.lookup permit = some live
  | .complete permit => ∃ live, world.permits.lookup permit = some live ∧ live.waited = true

def setHandles (world : AccessWorld) (pin : ℕ) (f : ℕ → ℕ) : AccessWorld :=
  match world.pins.lookup pin with
  | some live =>
    { world with pins := world.pins.insert pin { live with handles := f live.handles } }
  | none => world

def after (world : AccessWorld) : AccessEvent → Except (Exit WorkerError) Unit × AccessWorld
  | .pinBlock key pin =>
    match world.states.pinBlock key with
    | .ok states => (.ok (), { world with states, pins := world.pins.insert pin ⟨key, 1⟩ })
    | .error exit => (.error exit, world)
  | .clonePin pin => (.ok (), world.setHandles pin (· + 1))
  | .dropPin pin => (.ok (), world.setHandles pin (· - 1))
  | .releasePin pin =>
    match world.pins.lookup pin with
    | none => (.ok (), world)
    | some live =>
      match world.states.releasePin live.key with
      | .ok states => (.ok (), { world with states, pins := world.pins.erase pin })
      | .error exit => (.error exit, world)
  | .beginReclaim key permit =>
    match world.states.beginReclaim key with
    | .ok states =>
      (.ok (), { world with states, permits := world.permits.insert permit ⟨key, false⟩ })
    | .error exit => (.error exit, world)
  | .waitForPins permit =>
    match world.permits.lookup permit with
    | none => (.ok (), world)
    | some live =>
      if world.states.pinsToWaitFor live.key = 0 then
        (.ok (), { world with permits := world.permits.insert permit ⟨live.key, true⟩ })
      else (.ok (), world)
  | .complete permit =>
    match world.permits.lookup permit with
    | none => (.ok (), world)
    | some live =>
      match world.states.completeReclaim live.key with
      | .ok states => (.ok (), { world with states, permits := world.permits.erase permit })
      | .error exit => (.error exit, world)
  | .dropPermit permit =>
    match world.permits.lookup permit with
    | none => (.ok (), world)
    | some live =>
      (.ok (), { world with
        states := world.states.releaseReclaimOperation live.key
        permits := world.permits.erase permit })

def Accesses (world : AccessWorld) (event : AccessEvent) (world' : AccessWorld) : Prop :=
  world.Enabled event ∧ (world.after event).2 = world'

/-! ## The pins of a block -/

def recordedPins : Option BlockAccessState → ℕ
  | some (.available pins) => pins
  | some (.reclaiming pins _) => pins
  | none => 0

def onBlock (key : BlockAccessKey) (live : LivePin) : ℕ := if live.key = key then 1 else 0

def livePins (world : AccessWorld) (key : BlockAccessKey) : ℕ := world.pins.total (onBlock key)

structure Sound (world : AccessWorld) : Prop where
  counted : ∀ key, recordedPins (world.states.lookup key) = world.livePins key
  held : ∀ permit live, world.permits.lookup permit = some live →
    ∃ pins, world.states.lookup live.key = some (.reclaiming pins true)
  alone : ∀ permit permit' live live', world.permits.lookup permit = some live →
    world.permits.lookup permit' = some live' → live.key = live'.key → permit = permit'
  settled : ∀ permit live, world.permits.lookup permit = some live → live.waited = true →
    world.livePins live.key = 0

variable {world world' : AccessWorld} {states states' : AccessStates} {key : BlockAccessKey}
  {event : AccessEvent}

theorem livePins_le_len : world.livePins key ≤ world.pins.len := by
  unfold livePins
  rw [len_eq_total]
  apply total_mono
  intro live
  unfold onBlock
  split <;> omega

theorem lookup_of_pinBlock (h : states.pinBlock key = .ok states') :
    ∃ pins, recordedPins (states.lookup key) = pins ∧ states.isReclaiming key = false ∧
      states' = states.insert key (.available (pins + 1)) := by
  unfold AccessStates.pinBlock at h
  unfold AccessStates.isReclaiming
  split at h
  next pins hstate =>
    split at h
    · cases h
    · cases h
      exact ⟨pins, by rw [hstate]; rfl, by rw [hstate], rfl⟩
  · cases h
  next hstate =>
    cases h
    exact ⟨0, by rw [hstate]; rfl, by rw [hstate], rfl⟩

theorem lookup_of_beginReclaim (h : states.beginReclaim key = .ok states') :
    (∀ pins, states.lookup key ≠ some (.reclaiming pins true)) ∧
      states' = states.insert key (.reclaiming (recordedPins (states.lookup key)) true) := by
  unfold AccessStates.beginReclaim at h
  split at h
  next hstate =>
    cases h
    rw [hstate]
    exact ⟨nofun, rfl⟩
  · cases h
  next hstate =>
    cases h
    rw [hstate]
    exact ⟨nofun, rfl⟩
  next hstate =>
    cases h
    rw [hstate]
    exact ⟨nofun, rfl⟩

theorem releasePin_ok {pins : ℕ} (h : recordedPins (states.lookup key) = pins + 1) :
    ∃ states', states.releasePin key = .ok states' ∧ recordedPins (states'.lookup key) = pins ∧
      (∀ other, other ≠ key → states'.lookup other = states.lookup other) ∧
      (∀ recorded active, states.lookup key = some (.reclaiming recorded active) →
        states'.lookup key = some (.reclaiming pins active)) := by
  unfold AccessStates.releasePin
  cases hstate : states.lookup key with
  | none =>
    rw [hstate] at h
    cases h
  | some state =>
    rw [hstate] at h
    cases state with
    | available recorded =>
      change recorded = pins + 1 at h
      subst h
      refine ⟨_, rfl, ?_, ?_, nofun⟩
      · split
        next hzero =>
          rw [lookup_erase_eq, if_pos rfl, hzero]
          rfl
        · rw [lookup_insert_eq, if_pos rfl]
          rfl
      · intro other hother
        split
        · rw [lookup_erase_eq, if_neg hother]
        · rw [lookup_insert_eq, if_neg hother]
    | reclaiming recorded =>
      change recorded = pins + 1 at h
      subst h
      refine ⟨_, rfl, ?_, ?_, ?_⟩
      · rw [lookup_insert_eq, if_pos rfl]
        rfl
      · intro other hother
        rw [lookup_insert_eq, if_neg hother]
      · rintro _ _ ⟨⟩
        rw [lookup_insert_eq, if_pos rfl]

/-! ## Every event keeps the invariant -/

theorem sound_new : Sound new := by
  constructor
  · intro key
    rfl
  · intro permit live h
    cases h
  · intro permit permit' live live' h
    cases h
  · intro permit live h
    cases h

variable {pin permit : ℕ} {live : LivePermit}

theorem livePins_insert (hfresh : world.pins.lookup pin = none) (other : BlockAccessKey)
    (states : AccessStates) :
    livePins { world with states := states, pins := world.pins.insert pin ⟨key, 1⟩ } other =
      world.livePins other + if key = other then 1 else 0 := by
  unfold livePins
  rw [total_insert _ hfresh]
  rfl

section

variable (h : world.Sound)
include h

theorem Sound.pinBlock (hfresh : world.pins.lookup pin = none) :
    (world.after (.pinBlock key pin)).2.Sound := by
  unfold after
  dsimp only
  split
  next states' hpin =>
    obtain ⟨pins, hrecorded, hopen, rfl⟩ := lookup_of_pinBlock hpin
    have hne : ∀ permit live, world.permits.lookup permit = some live → live.key ≠ key := by
      rintro permit live hlive rfl
      obtain ⟨found, hfound⟩ := h.held permit live hlive
      unfold AccessStates.isReclaiming at hopen
      rw [hfound] at hopen
      cases hopen
    constructor
    · intro other
      rw [livePins_insert hfresh, ← h.counted other, lookup_insert_eq]
      by_cases hother : other = key
      · subst hother
        rw [if_pos rfl, if_pos rfl, hrecorded]
        rfl
      · rw [if_neg hother, if_neg (Ne.symm hother), Nat.add_zero]
    · intro permit live hlive
      obtain ⟨found, hfound⟩ := h.held permit live hlive
      refine ⟨found, ?_⟩
      rw [lookup_insert_eq, if_neg (hne permit live hlive), hfound]
    · exact h.alone
    · intro permit live hlive hwaited
      rw [livePins_insert hfresh, if_neg (Ne.symm (hne permit live hlive)),
        h.settled permit live hlive hwaited]
  · exact h

theorem Sound.setHandles (pin : ℕ) (f : ℕ → ℕ) : (world.setHandles pin f).Sound := by
  unfold AccessWorld.setHandles
  split
  next live hlive =>
    have hsame : ∀ key, livePins { world with
        pins := world.pins.insert pin { live with handles := f live.handles } } key =
        world.livePins key := by
      intro key
      have htotal := total_replace (onBlock key) { live with handles := f live.handles } hlive
      unfold livePins
      have hweight : onBlock key { live with handles := f live.handles } = onBlock key live := rfl
      rw [hweight] at htotal
      exact Nat.add_right_cancel htotal
    constructor
    · intro key
      rw [hsame, ← h.counted key]
    · exact h.held
    · exact h.alone
    · intro permit found hfound hwaited
      rw [hsame]
      exact h.settled permit found hfound hwaited
  · exact h

theorem Sound.releasePin : (world.after (.releasePin pin)).2.Sound ∧
      ∀ message, (world.after (.releasePin pin)).1 ≠ .error (.panicked message) := by
  unfold after
  dsimp only
  split
  · exact ⟨h, nofun⟩
  next live hlive =>
    have hcount : ∀ key, world.livePins key =
        total (onBlock key) (world.pins.erase pin) + onBlock key live := by
      intro key
      exact (total_erase hlive).symm
    have hrecorded : recordedPins (world.states.lookup live.key) =
        total (onBlock live.key) (world.pins.erase pin) + 1 := by
      rw [h.counted, hcount]
      unfold onBlock
      rw [if_pos rfl]
    obtain ⟨states', hrelease, hpins, hothers, hreclaiming⟩ := releasePin_ok hrecorded
    rw [hrelease]
    refine ⟨?_, nofun⟩
    constructor
    · intro key
      change recordedPins (states'.lookup key) = total (onBlock key) (world.pins.erase pin)
      by_cases hkey : key = live.key
      · rw [hkey, hpins]
      · rw [hothers key hkey, h.counted, hcount]
        unfold onBlock
        rw [if_neg (Ne.symm hkey), Nat.add_zero]
    · intro permit found hfound
      obtain ⟨pins, hstate⟩ := h.held permit found hfound
      by_cases hkey : found.key = live.key
      · rw [hkey] at hstate ⊢
        exact ⟨_, hreclaiming pins true hstate⟩
      · exact ⟨pins, (hothers found.key hkey).trans hstate⟩
    · exact h.alone
    · intro permit found hfound hwaited
      have hnone := h.settled permit found hfound hwaited
      rw [hcount] at hnone
      exact Nat.eq_zero_of_add_eq_zero_right hnone

theorem Sound.beginReclaim : (world.after (.beginReclaim key permit)).2.Sound := by
  unfold after
  dsimp only
  split
  next states' hbegin =>
    obtain ⟨hidle, rfl⟩ := lookup_of_beginReclaim hbegin
    have hne : ∀ other live, world.permits.lookup other = some live → live.key ≠ key := by
      rintro other live hlive rfl
      obtain ⟨pins, hpins⟩ := h.held other live hlive
      exact hidle pins hpins
    constructor
    · intro other
      change recordedPins ((world.states.insert key _).lookup other) = world.livePins other
      rw [lookup_insert_eq]
      by_cases hother : other = key
      · rw [if_pos hother, hother, ← h.counted]
        rfl
      · rw [if_neg hother, h.counted]
    · intro other live hlive
      change (world.permits.insert permit ⟨key, false⟩).lookup other = some live at hlive
      rw [lookup_insert_eq] at hlive
      dsimp only
      rw [lookup_insert_eq]
      split at hlive
      · cases hlive
        exact ⟨_, if_pos rfl⟩
      · rw [if_neg (hne other live hlive)]
        exact h.held other live hlive
    · intro other other' live live' hlive hlive' hsame
      change (world.permits.insert permit ⟨key, false⟩).lookup other = some live at hlive
      change (world.permits.insert permit ⟨key, false⟩).lookup other' = some live' at hlive'
      rw [lookup_insert_eq] at hlive hlive'
      split at hlive
      next heq =>
        cases hlive
        split at hlive'
        next heq' => rw [heq, heq']
        · exact absurd hsame.symm (hne other' live' hlive')
      · split at hlive'
        · cases hlive'
          exact absurd hsame (hne other live hlive)
        · exact h.alone other other' live live' hlive hlive' hsame
    · intro other live hlive hwaited
      change (world.permits.insert permit ⟨key, false⟩).lookup other = some live at hlive
      rw [lookup_insert_eq] at hlive
      split at hlive
      · cases hlive
        cases hwaited
      · exact h.settled other live hlive hwaited
  · exact h

theorem Sound.waitForPins : (world.after (.waitForPins permit)).2.Sound := by
  unfold after
  dsimp only
  split
  · exact h
  next live hlive =>
    split
    next hnone =>
      have hmove : ∀ other found, (world.permits.insert permit ⟨live.key, true⟩).lookup other =
          some found → ∃ before, world.permits.lookup other = some before ∧
            before.key = found.key ∧ (found.waited = true → before.waited = true ∨
              other = permit) := by
        intro other found hfound
        rw [lookup_insert_eq] at hfound
        split at hfound
        next heq =>
          cases hfound
          exact ⟨live, heq ▸ hlive, rfl, fun _ => .inr heq⟩
        · exact ⟨found, hfound, rfl, .inl⟩
      constructor
      · exact h.counted
      · intro other found hfound
        obtain ⟨before, hbefore, hkey, _⟩ := hmove other found hfound
        rw [← hkey]
        exact h.held other before hbefore
      · intro other other' found found' hfound hfound' hsame
        obtain ⟨before, hbefore, hkey, _⟩ := hmove other found hfound
        obtain ⟨before', hbefore', hkey', _⟩ := hmove other' found' hfound'
        exact h.alone other other' before before' hbefore hbefore' (by rw [hkey, hkey', hsame])
      · intro other found hfound hwaited
        obtain ⟨before, hbefore, hkey, hold⟩ := hmove other found hfound
        rw [← hkey]
        rcases hold hwaited with hsettled | rfl
        · exact h.settled other before hbefore hsettled
        · rw [hlive] at hbefore
          cases hbefore
          obtain ⟨pins, hstate⟩ := h.held other live hlive
          unfold AccessStates.pinsToWaitFor at hnone
          rw [hstate] at hnone
          change world.livePins live.key = 0
          rw [← h.counted, hstate]
          exact hnone
    · exact h

theorem Sound.removePermit (hlive : world.permits.lookup permit = some live)
    (hpins : recordedPins (states'.lookup live.key) = recordedPins (world.states.lookup live.key))
    (hothers : ∀ key, key ≠ live.key → states'.lookup key = world.states.lookup key) :
    Sound { world with states := states', permits := world.permits.erase permit } := by
  have hkeep : ∀ other found, (world.permits.erase permit).lookup other = some found →
      world.permits.lookup other = some found ∧ found.key ≠ live.key := by
    intro other found hfound
    rw [lookup_erase_eq] at hfound
    split at hfound
    · cases hfound
    next hne =>
      refine ⟨hfound, ?_⟩
      intro hsame
      exact hne (h.alone other permit found live hfound hlive hsame)
  constructor
  · intro key
    change recordedPins (states'.lookup key) = world.livePins key
    by_cases hkey : key = live.key
    · rw [hkey, hpins, h.counted]
    · rw [hothers key hkey, h.counted]
  · intro other found hfound
    obtain ⟨hbefore, hne⟩ := hkeep other found hfound
    change ∃ pins, states'.lookup found.key = some (.reclaiming pins true)
    rw [hothers found.key hne]
    exact h.held other found hbefore
  · intro other other' found found' hfound hfound' hsame
    exact h.alone other other' found found' (hkeep other found hfound).1
      (hkeep other' found' hfound').1 hsame
  · intro other found hfound hwaited
    exact h.settled other found (hkeep other found hfound).1 hwaited

theorem Sound.complete (hlive : world.permits.lookup permit = some live)
    (hwaited : live.waited = true) :
    (world.after (.complete permit)).1 = .ok () ∧
      (world.after (.complete permit)).2 = { world with
        states := world.states.erase live.key, permits := world.permits.erase permit } ∧
      (world.after (.complete permit)).2.Sound := by
  obtain ⟨pins, hstate⟩ := h.held permit live hlive
  have hnone : pins = 0 := by
    have hcount := h.counted live.key
    rw [hstate, h.settled permit live hlive hwaited] at hcount
    exact hcount
  subst hnone
  have hcomplete : world.states.completeReclaim live.key = .ok (world.states.erase live.key) := by
    unfold AccessStates.completeReclaim
    rw [hstate]
  unfold after
  dsimp only
  rw [hlive]
  dsimp only
  rw [hcomplete]
  refine ⟨rfl, rfl, ?_⟩
  apply h.removePermit hlive
  · rw [lookup_erase_eq, if_pos rfl, hstate]
    rfl
  · intro key hkey
    rw [lookup_erase_eq, if_neg hkey]

theorem Sound.dropPermit : (world.after (.dropPermit permit)).2.Sound := by
  unfold after
  dsimp only
  split
  · exact h
  next live hlive =>
    obtain ⟨pins, hstate⟩ := h.held permit live hlive
    have hrelease : world.states.releaseReclaimOperation live.key =
        world.states.insert live.key (.reclaiming pins false) := by
      unfold AccessStates.releaseReclaimOperation
      rw [hstate]
    rw [hrelease]
    apply h.removePermit hlive
    · rw [lookup_insert_eq, if_pos rfl, hstate]
      rfl
    · intro key hkey
      rw [lookup_insert_eq, if_neg hkey]

theorem Sound.after (henabled : world.Enabled event) : (world.after event).2.Sound := by
  cases event with
  | pinBlock => exact h.pinBlock henabled.1
  | clonePin pin => exact h.setHandles pin (· + 1)
  | dropPin pin => exact h.setHandles pin (· - 1)
  | releasePin => exact h.releasePin.1
  | beginReclaim => exact h.beginReclaim
  | waitForPins => exact h.waitForPins
  | complete =>
    obtain ⟨live, hlive, hwaited⟩ := henabled
    exact (h.complete hlive hwaited).2.2
  | dropPermit => exact h.dropPermit

theorem Sound.not_panicked (henabled : world.Enabled event) (message : String) :
    (world.after event).1 ≠ .error (.panicked message) := by
  cases event with
  | pinBlock key =>
    unfold AccessWorld.after
    dsimp only
    split
    · exact nofun
    next exit hpin =>
      intro hpanic
      cases hpanic
      unfold AccessStates.pinBlock at hpin
      split at hpin
      next pins hstate =>
        split at hpin
        next hfull =>
          have hcount := h.counted key
          rw [hstate] at hcount
          change pins = _ at hcount
          have hle : world.livePins key ≤ world.pins.len := livePins_le_len
          have hspace := henabled.2
          omega
        · cases hpin
      · cases hpin
      · cases hpin
  | clonePin | dropPin => exact nofun
  | releasePin => exact h.releasePin.2 message
  | beginReclaim =>
    unfold AccessWorld.after
    dsimp only
    split
    · exact nofun
    next exit hbegin =>
      intro hpanic
      cases hpanic
      unfold AccessStates.beginReclaim at hbegin
      split at hbegin <;> cases hbegin
  | waitForPins =>
    unfold AccessWorld.after
    dsimp only
    split
    · exact nofun
    · split <;> exact nofun
  | complete =>
    obtain ⟨live, hlive, hwaited⟩ := henabled
    rw [(h.complete hlive hwaited).1]
    exact nofun
  | dropPermit =>
    unfold AccessWorld.after
    dsimp only
    split <;> exact nofun

end

/-! ## A closed block -/

def Closed (world : AccessWorld) (key : BlockAccessKey) : Prop :=
  world.states.isReclaiming key = true

theorem closed_iff : world.Closed key ↔
    ∃ pins active, world.states.lookup key = some (.reclaiming pins active) := by
  unfold Closed AccessStates.isReclaiming
  constructor
  · intro h
    split at h
    next pins active hstate => exact ⟨pins, active, hstate⟩
    · cases h
  · rintro ⟨pins, active, hstate⟩
    rw [hstate]

theorem Closed.refuses (h : world.Closed key) : ∃ error,
    world.states.pinBlock key = .error (.refused error) := by
  obtain ⟨pins, active, hstate⟩ := closed_iff.1 h
  unfold AccessStates.pinBlock
  rw [hstate]
  exact ⟨_, rfl⟩

theorem Closed.after (hclosed : world.Closed key) (h : world.Sound) (henabled : world.Enabled event)
    (hnot : ∀ permit live, event = .complete permit → world.permits.lookup permit = some live →
      live.key ≠ key) : (world.after event).2.Closed key := by
  rw [closed_iff] at hclosed ⊢
  obtain ⟨pins, active, hstate⟩ := hclosed
  cases event with
  | pinBlock other =>
    unfold AccessWorld.after
    dsimp only
    split
    next states' hpin =>
      obtain ⟨_, _, hopen, rfl⟩ := lookup_of_pinBlock hpin
      have hne : key ≠ other := by
        rintro rfl
        unfold AccessStates.isReclaiming at hopen
        rw [hstate] at hopen
        cases hopen
      refine ⟨pins, active, ?_⟩
      rw [lookup_insert_eq, if_neg hne, hstate]
    · exact ⟨pins, active, hstate⟩
  | clonePin | dropPin =>
    refine ⟨pins, active, ?_⟩
    unfold AccessWorld.after setHandles
    dsimp only
    split <;> exact hstate
  | releasePin =>
    unfold AccessWorld.after
    dsimp only
    split
    · exact ⟨pins, active, hstate⟩
    next live hlive =>
      split
      next states' hrelease =>
        change ∃ pins active, states'.lookup key = some (.reclaiming pins active)
        unfold AccessStates.releasePin at hrelease
        by_cases hkey : key = live.key
        · rw [← hkey, hstate] at hrelease
          cases pins with
          | zero => cases hrelease
          | succ pins =>
            cases hrelease
            exact ⟨pins, active, by rw [lookup_insert_eq, if_pos rfl]⟩
        · refine ⟨pins, active, ?_⟩
          split at hrelease
          · cases hrelease
          · cases hrelease
            split
            · rw [lookup_erase_eq, if_neg hkey, hstate]
            · rw [lookup_insert_eq, if_neg hkey, hstate]
          · cases hrelease
          · cases hrelease
            rw [lookup_insert_eq, if_neg hkey, hstate]
          · cases hrelease
            exact hstate
      · exact ⟨pins, active, hstate⟩
  | beginReclaim =>
    unfold AccessWorld.after
    dsimp only
    split
    next states' hbegin =>
      obtain ⟨_, rfl⟩ := lookup_of_beginReclaim hbegin
      dsimp only
      rw [lookup_insert_eq]
      split
      · exact ⟨_, _, rfl⟩
      · exact ⟨pins, active, hstate⟩
    · exact ⟨pins, active, hstate⟩
  | waitForPins =>
    refine ⟨pins, active, ?_⟩
    unfold AccessWorld.after
    dsimp only
    split
    · exact hstate
    · split <;> exact hstate
  | complete permit =>
    obtain ⟨live, hlive, hwaited⟩ := henabled
    rw [(h.complete hlive hwaited).2.1]
    refine ⟨pins, active, ?_⟩
    dsimp only
    rw [lookup_erase_eq, if_neg (Ne.symm (hnot permit live rfl hlive)), hstate]
  | dropPermit =>
    unfold AccessWorld.after
    dsimp only
    split
    · exact ⟨pins, active, hstate⟩
    next live hlive =>
      unfold AccessStates.releaseReclaimOperation
      split
      next found _ hfound =>
        dsimp only
        rw [lookup_insert_eq]
        split
        · exact ⟨found, false, rfl⟩
        · exact ⟨pins, active, hstate⟩
      · exact ⟨pins, active, hstate⟩

theorem Sound.closed_of_dropPermit (h : world.Sound)
    (hlive : world.permits.lookup permit = some live) :
    (world.after (.dropPermit permit)).2.Closed live.key := by
  obtain ⟨pins, hstate⟩ := h.held permit live hlive
  rw [closed_iff]
  refine ⟨pins, false, ?_⟩
  unfold AccessWorld.after
  dsimp only
  rw [hlive]
  dsimp only
  unfold AccessStates.releaseReclaimOperation
  rw [hstate]
  dsimp only
  rw [lookup_insert_eq, if_pos rfl]

/-! ## Whole runs -/

open History

variable {past : List (Transition AccessWorld AccessEvent)}

abbrev Reached (past : List (Transition AccessWorld AccessEvent)) (world : AccessWorld) : Prop :=
  Run Accesses (fun _ _ _ => True) new past world

theorem Reached.sound (hrun : Reached past world) : world.Sound := by
  apply hrun.invariant sound_new
  intro past world event world' _ hsound _ hstep
  rw [← hstep.2]
  exact hsound.after hstep.1

/-- The block of a permit that ended without completion stays closed until some reclaim of the
block completes. -/
theorem Reached.closed {newer older : List (Transition AccessWorld AccessEvent)}
    {dropped : Transition AccessWorld AccessEvent}
    (hrun : Reached (newer ++ dropped :: older) world) (hlabel : dropped.label = .dropPermit permit)
    (hlive : dropped.before.permits.lookup permit = some live)
    (hopen : ∀ u ∈ newer, ∀ other found, u.label = .complete other → u.before.permits.lookup other
      = some found → found.key ≠ live.key) : world.Closed live.key := by
  apply hrun.since
  · obtain ⟨_, hbefore, _, hstep⟩ := hrun.of_mem (List.mem_append_right newer List.mem_cons_self)
    rw [← hstep.2, hlabel]
    exact (Reached.sound hbefore).closed_of_dropPermit hlive
  · intro u hu past hbefore hclosed hstep
    rw [← hstep.2]
    exact hclosed.after (Reached.sound hbefore) hstep.1 (hopen u hu)

/-- In every interleaving: the pins on record are the live ones; a block under reclaim refuses new
pins and has at most one permit; a permit that has waited sees no live pin; a reclaim that ended
without completion leaves the block closed; and no assertion of the registry fails. -/
theorem block_access_interleavings (hrun : Reached past world) :
    (∀ key, recordedPins (world.states.lookup key) = world.livePins key) ∧
    (∀ key, world.Closed key → (∃ error, world.states.pinBlock key = .error (.refused error)) ∧
      ∀ permit permit' live live', world.permits.lookup permit = some live →
        world.permits.lookup permit' = some live' → live.key = key → live'.key = key →
        permit = permit') ∧
    (∀ permit live, world.permits.lookup permit = some live → live.waited = true →
      ∀ pin found, world.pins.lookup pin = some found → found.key ≠ live.key) ∧
    (∀ newer dropped older permit live, past = newer ++ dropped :: older →
      dropped.label = .dropPermit permit → dropped.before.permits.lookup permit = some live →
      (∀ u ∈ newer, ∀ other found, u.label = .complete other →
        u.before.permits.lookup other = some found → found.key ≠ live.key) →
      world.Closed live.key) ∧ (∀ event, world.Enabled event → ∀ message,
      (world.after event).1 ≠ .error (.panicked message)) := by
  have h := hrun.sound
  refine ⟨h.counted, ?_, ?_, ?_, ?_⟩
  · intro key hclosed
    refine ⟨hclosed.refuses, ?_⟩
    intro permit permit' live live' hlive hlive' hkey hkey'
    exact h.alone permit permit' live live' hlive hlive' (hkey.trans hkey'.symm)
  · intro permit live hlive hwaited pin found hfound hkey
    have hnone := total_eq_zero_iff.1 (h.settled permit live hlive hwaited) pin found hfound
    unfold onBlock at hnone
    rw [if_pos hkey] at hnone
    cases hnone
  · intro newer dropped older permit live hpast hlabel hlive hopen
    subst hpast
    exact hrun.closed hlabel hlive hopen
  · intro event henabled message
    exact h.not_panicked henabled message

theorem Reached.take (hrun : Reached past world) (event : AccessEvent)
    (henabled : world.Enabled event) :
    Reached (⟨world, event, (world.after event).2⟩ :: past) (world.after event).2 :=
  .next hrun trivial ⟨henabled, rfl⟩

def pinnedBlock : BlockAccessKey := ⟨⟨"root", checkGroupName_root⟩, ⟨7, 0⟩⟩

/-- A reclaim waits for a pin with two clones and is cancelled. -/
theorem block_access_interleavings_cancelled : ∃ past world, Reached past world ∧
    world.Closed pinnedBlock ∧
    recordedPins (world.states.lookup pinnedBlock) = world.livePins pinnedBlock := by
  have hnew : Reached [] new := .start
  have hpinned := hnew.take (.pinBlock pinnedBlock 0) ⟨rfl, by decide⟩
  have hcloned := hpinned.take (.clonePin 0) ⟨⟨pinnedBlock, 1⟩, rfl, by decide⟩
  have hbegun := hcloned.take (.beginReclaim pinnedBlock 0) rfl
  have hdropped := hbegun.take (.dropPin 0) ⟨⟨pinnedBlock, 2⟩, rfl, by decide⟩
  have hgone := hdropped.take (.dropPin 0) ⟨⟨pinnedBlock, 1⟩, rfl, by decide⟩
  have hreleased := hgone.take (.releasePin 0) ⟨⟨pinnedBlock, 0⟩, rfl, rfl⟩
  have hwaited := hreleased.take (.waitForPins 0) ⟨⟨pinnedBlock, false⟩, rfl⟩
  have hcancelled := hwaited.take (.dropPermit 0) ⟨⟨pinnedBlock, true⟩, rfl⟩
  exact ⟨_, _, hcancelled, rfl, (block_access_interleavings hcancelled).1 pinnedBlock⟩

end AccessWorld

end Beryl
