import SimPokey.Pokey

/-!
# What the functions on a table use, whether they return or stop

Nothing is assumed about the table here: `numberOfPins` may be any number, and the pointers may
lead nowhere or to the same record.

* Loading uses slots of `pins[]` (`loadPinConfiguration_frames`, `loadPWMConfiguration_frames`).
* Validating uses slots of `pins[]` and its texts (`checkValidPinConfiguration_frames`).
* Polling keeps every pin and type, and uses slots of `pins[]` and the elements of `Pins[]` of the
  digital inputs (`pollDevice_frames`).
-/

namespace SimPokey

open FaultState LibConfig

/-- A slot of `pins[]`. -/
def IsSlot (a : Access) : Prop := ∃ i : ℤ, a = .pins i

/-! ### Slots -/

theorem touch_frames {P : Access → Prop} {a : Access} (h : P a) :
    Frames (UsesOnly P) (touch a) := fun m => .touch h m

theorem portAt_frames {P : Access → Prop} (d : Device) {i : ℤ} (h : P (.pins i)) :
    Frames (UsesOnly P) (portAt d i) := by
  intro m
  cases hslot : slotOf m d i with
  | none =>
    rw [portAt_of_wild hslot]
    exact .touch h m
  | some port =>
    obtain ⟨p, -, hread⟩ := portAt_of_slot hslot
    rw [hread]
    exact .touch h m

theorem storePort_frames (d : Device) (i : ℤ) (port : DevicePort) :
    Frames (UsesOnly IsSlot) (storePort d i port) := fun m => ⟨[.pins i], rfl, by simp [IsSlot]⟩

theorem writePort_frames (P : Access → Prop) (p : ℕ) (port : DevicePort) :
    Frames (UsesOnly P) (writePort p port) := fun _ => .of_eq _ rfl

theorem pokeyOf_frames (P : Access → Prop) (d : Device) : Frames (UsesOnly P) (pokeyOf d) := by
  refine .of_eq fun m => ?_
  simp only [pokeyOf, EStateM.run]
  cases d.pokey <;> rfl

/-! ### Loading -/

theorem checkPinExistsInConfig_frames (d : Device) (pin : ℤ) :
    Frames (UsesOnly IsSlot) (checkPinExistsInConfig d pin) := by
  suffices h : ∀ is, Frames (UsesOnly IsSlot) (checkPinExistsFrom d pin is) from h _
  intro is
  induction is with
  | nil => exact .pure _
  | cons i is ih => exact .bind (portAt_frames d ⟨i, rfl⟩) fun _ => .ite _ (.pure _) ih

section Loaders

variable {Setting : Type} [LibConfig Setting]

theorem loadPinEntry_frames (st : Device × ℤ) (entry : Setting) :
    Frames (UsesOnly IsSlot) (loadPinEntry st entry) := by
  unfold loadPinEntry
  cases lookupInt entry "pin" with
  | none => exact .pure _
  | some pin =>
    refine .bind (checkPinExistsInConfig_frames _ pin) fun _ => .ite _ (.pure _) ?_
    cases lookupString entry "type" with
    | none => exact .pure _
    | some tempType => exact .bind (storePort_frames _ _ _) fun _ => .pure _

theorem loadPWMEntry_frames (d : Device) (entry : Setting) :
    Frames (UsesOnly IsSlot) (loadPWMEntry d entry) := by
  unfold loadPWMEntry
  cases lookupInt entry "channel" with
  | none => exact .pure _
  | some channel =>
    simp only
    cases pwmPin channel with
    | none => exact .pure _
    | some pin =>
      refine .bind (checkPinExistsInConfig_frames _ pin) fun _ => .ite _ (.pure _) ?_
      exact .bind (storePort_frames _ _ _) fun _ => .pure _

theorem loadPinConfiguration_frames (pins : Option Setting) (d : Device) :
    Frames (UsesOnly IsSlot) (loadPinConfiguration pins d) := by
  unfold loadPinConfiguration
  cases pins with
  | none => exact .pure _
  | some ports =>
    refine .ite _ (.pure _) (.bind ?_ fun _ => .pure _)
    exact .foldlM (fun entry _ st => loadPinEntry_frames st entry) _

theorem loadPWMConfiguration_frames (pwm : Option Setting) (d : Device) :
    Frames (UsesOnly IsSlot) (loadPWMConfiguration pwm d) := by
  unfold loadPWMConfiguration
  cases pwm with
  | none => exact .pure _
  | some ports =>
    refine .ite _ (.pure _) (.bind ?_ fun _ => .pure _)
    exact .foldlM (fun entry _ d => loadPWMEntry_frames d entry) _

end Loaders

/-! ### Validating -/

/-- A slot of `pins[]`, or a text. -/
def IsSlotOrText (a : Access) : Prop := IsSlot a ∨ ∃ size length, a = .text size length

theorem checkPort_frames (lib : PoKeysLib) (d : Device) (pokey : PoKeysDevice) (i : ℕ) :
    Frames (UsesOnly IsSlotOrText) (checkPort lib d pokey i) := by
  have htext : ∀ size length, IsSlotOrText (.text size length) := fun size length =>
    Or.inr ⟨size, length, rfl⟩
  have hlog : ∀ line, Frames (UsesOnly IsSlotOrText) (logReport line) := fun _ _ => .of_eq _ rfl
  refine .bind (portAt_frames d (Or.inl ⟨i, rfl⟩)) fun port =>
    .bind (.bind (touch_frames (htext _ _)) fun _ => .pure _) fun str =>
      .ite _ (writePort_frames _ _ _) (.bind ?_ fun _ => .ite _ (hlog _) (.pure _))
  cases incorrectType port.2.type with
  | none => exact .pure _
  | some s => exact .bind (touch_frames (htext _ _)) fun _ => .pure _

theorem checkValidPinConfiguration_frames (lib : PoKeysLib) (d : Device) :
    Frames (UsesOnly IsSlotOrText) (checkValidPinConfiguration lib d) := by
  unfold checkValidPinConfiguration
  refine .ite _ (.pure _) (.bind (pokeyOf_frames _ d) fun pokey => .bind ?_ fun _ => .pure _)
  exact .foldlM (fun i _ _ => checkPort_frames lib d _ i) _

/-! ### Polling -/

/-- What polling looks at in a record besides its levels, and never changes. -/
def portView (p : DevicePort) : ℤ × ℤ := (p.pin, p.type)

theorem slotOf_map_portView (m : Memory) (d : Device) (i : ℤ) :
    (slotOf m d i).map portView = (d.pins i).bind fun p => (m.ports.map portView)[p]? := by
  unfold slotOf
  cases d.pins i with
  | none => rfl
  | some p => simp

/-- What a tick on the table of `d` may use, when the image has `count` pins. -/
def PollUse (count : ℕ) (table : List (Option DevicePort)) (a : Access) : Prop :=
  IsSlot a ∨ ∃ p, some p ∈ table ∧ p.type = PinType.digitalInput ∧ a = .pokeyPins count (p.pin - 1)

/-- The memories of ticks on the device `d`, from the memory `m₀` on. -/
def Polls (m₀ : Memory) (d : Device) (count : ℕ) (m m' : Memory) : Prop :=
  m.ports.map portView = m₀.ports.map portView →
    m'.ports.map portView = m₀.ports.map portView ∧ UsesOnly (PollUse count (tableOf m₀ d)) m m'

instance (m₀ : Memory) (d : Device) (count : ℕ) : IsPreorder Memory (Polls m₀ d count) where
  refl := fun _ h => ⟨h, .of_eq _ rfl⟩
  trans := fun _ _ _ h h' hview => by
    obtain ⟨hview', huses⟩ := h hview
    obtain ⟨hview'', huses'⟩ := h' hview'
    exact ⟨hview'', huses.trans huses'⟩

theorem pollSlot_frames (m₀ : Memory) (d : Device) (pokey : PoKeysDevice) {i : ℕ}
    (hi : i < d.numberOfPins.toNat) : Frames (Polls m₀ d pokey.iPinCount) (pollSlot d pokey i) := by
  intro m hview
  unfold pollSlot
  cases hslot : slotOf m d i with
  | none =>
    rw [bind_of_error (portAt_of_wild hslot)]
    exact ⟨hview, .touch (Or.inl ⟨i, rfl⟩) m⟩
  | some p =>
    obtain ⟨q, hq, hread⟩ := portAt_of_slot hslot
    rw [bind_of_ok hread]
    have hslotUse : UsesOnly (PollUse pokey.iPinCount (tableOf m₀ d)) m (m.touch (.pins i)) :=
      .touch (Or.inl ⟨i, rfl⟩) m
    by_cases hin : p.type = PinType.digitalInput
    · simp only [if_neg (not_not.2 hin)]
      -- the slot held a record with the same pin and type from the start
      obtain ⟨p₀, hp₀, hpin⟩ : ∃ p₀, slotOf m₀ d i = some p₀ ∧ portView p₀ = portView p := by
        have hmap := slotOf_map_portView m d i
        rw [hview, ← slotOf_map_portView, hslot] at hmap
        exact Option.map_eq_some_iff.1 hmap.symm
      simp only [portView, Prod.mk.injEq] at hpin
      have hmem : some p₀ ∈ tableOf m₀ d := List.mem_map.2 ⟨i, List.mem_range.2 hi, hp₀⟩
      have huses := hslotUse.trans (.touch (Or.inr ⟨p₀, hmem, hpin.2.trans hin,
        show Access.pokeyPins pokey.iPinCount (p.pin - 1) = _ by rw [hpin.1]⟩) _)
      rw [bind_of_ok (touch_run _ _), run_ite]
      split_ifs
      · refine ⟨?_, huses⟩
        show (m.ports.set q _).map portView = _
        have hview' : portView { p with
            previousValue := p.value
            value := (pokey.pins (p.pin - 1)).digitalValueGet } = portView p := rfl
        obtain ⟨hlt, hget⟩ := List.getElem?_eq_some_iff.1 hq
        rw [List.map_set, hview', ← hget, ← List.map_set, List.set_getElem_self, hview]
      · exact ⟨hview, huses⟩
    · simp only [if_pos hin]
      exact ⟨hview, hslotUse⟩

theorem digitalIOTimerCallback_frames (m₀ : Memory) {d : Device} {pokey : PoKeysDevice}
    (hpokey : d.pokey = some pokey) (reading : Reading) :
    Frames (Polls m₀ d pokey.iPinCount) (digitalIOTimerCallback d reading) := by
  intro m
  unfold digitalIOTimerCallback
  rw [bind_of_ok (pokeyOf_run hpokey m)]
  refine Frames.ite _ (.bind (.foldlM (fun i hi _ => ?_) _) fun _ => .pure _) (.pure _) m
  exact pollSlot_frames m₀ d { pokey with pins := _ } (List.mem_range.1 hi)

/-- A tick that returns has replaced the image by one with as many pins. -/
theorem digitalIOTimerCallback_device {d d' : Device} {pokey : PoKeysDevice} {m m' : Memory}
    {reading : Reading} (hpokey : d.pokey = some pokey)
    (h : (digitalIOTimerCallback d reading).run m = .ok d' m') :
    ∃ pokey', d' = { d with pokey := some pokey' } ∧ pokey'.iPinCount = pokey.iPinCount := by
  unfold digitalIOTimerCallback at h
  rw [bind_of_ok (pokeyOf_run hpokey m), run_ite] at h
  split_ifs at h
  · obtain ⟨_, m₁, _, hret⟩ := bind_ok_iff.1 h
    cases hret
    exact ⟨_, rfl, rfl⟩
  · cases h
    exact ⟨_, rfl, rfl⟩

/-- The ticks of one device, one for each reading. -/
def pollDevice (readings : List Reading) (device : Device) : MemRun Device :=
  readings.foldlM digitalIOTimerCallback device

/-- **A run of ticks** uses slots of `pins[]` and the elements of `Pins[]` of the digital inputs. -/
theorem pollDevice_frames {d : Device} {pokey : PoKeysDevice} (hpokey : d.pokey = some pokey)
    (readings : List Reading) (m : Memory) :
    UsesOnly (PollUse pokey.iPinCount (tableOf m d)) m
      (final ((pollDevice readings d).run m)) := by
  have hrun : Polls m d pokey.iPinCount m (final ((pollDevice readings d).run m)) := by
    -- the device changes from tick to tick, but only its image, which keeps its pins
    refine foldlM_final (fun d' m' => (∃ pokey', d' = { d with pokey := some pokey' } ∧
      pokey'.iPinCount = pokey.iPinCount) ∧ Polls m d pokey.iPinCount m m')
      (Polls m d pokey.iPinCount m) (fun _ _ h => h.2) (fun reading _ d' m₁ hI => ?_)
      ⟨⟨pokey, by rw [← hpokey], rfl⟩, refl m⟩
    obtain ⟨⟨pokey₁, rfl, hcount⟩, hpolls⟩ := hI
    have hframes := digitalIOTimerCallback_frames m (d := { d with pokey := some pokey₁ }) rfl
      reading m₁
    have htick := trans_of (Polls m d pokey.iPinCount) hpolls (hcount ▸ hframes)
    constructor
    · intro d₂ m₂ hok
      obtain ⟨pokey₂, rfl, hcount₂⟩ := digitalIOTimerCallback_device rfl hok
      rw [hok] at htick
      exact ⟨⟨pokey₂, rfl, hcount₂.trans hcount⟩, htick⟩
    · intro e m₂ herr
      rw [herr] at htick
      exact htick
  exact (hrun rfl).2

end SimPokey
