import SimPokey.Main
import SimPokey.Pin.CheckReport
import SimPokey.Pin.Frames

/-!
# Only the check writes texts

Applying a table and dumping the registry may use slots, elements of `Pins[]` and the blocks of a
PWM pin, but no text (`applyConfiguration_texts`, `dumpDevices_texts`).  So whether every text has
fitted its block so far is decided by the checks alone.
-/

namespace SimPokey

open FaultState

/-- No text was written past the end of its block so far. -/
def Memory.AllTextsFit (m : Memory) : Prop := ∀ a ∈ m.accesses, FitsText a

instance (m : Memory) : Decidable m.AllTextsFit :=
  inferInstanceAs (Decidable (∀ a ∈ m.accesses, FitsText a))

theorem TextsFit.all_iff {m m' : Memory} (h : TextsFit m m') : m'.AllTextsFit ↔ m.AllTextsFit := by
  obtain ⟨new, hnew, hfit⟩ := h
  unfold Memory.AllTextsFit
  rw [hnew]
  constructor
  · exact fun hall a ha => hall a (List.mem_append_left _ ha)
  · exact fun hall a ha => (List.mem_append.1 ha).elim (hall a) (hfit a)

/-- The check of the records `ps` keeps to its blocks exactly when their cases pass. -/
theorem Checks.all_iff {lib : PoKeysLib} {pokey : PoKeysDevice} {T : List (ℕ × DevicePort)}
    {ps : List DevicePort} {m m' : Memory} (h : Checks lib pokey T ps m m') :
    m'.AllTextsFit ↔ m.AllTextsFit ∧
      ∀ p ∈ ps, (incorrectType p.type).isSome → passesCheck lib pokey p = true := by
  rw [← checkUses_fit_iff]
  unfold Memory.AllTextsFit
  rw [h.accesses]
  exact List.forall_mem_append

/-! ### Applying -/

theorem fault_texts {α : Type} (e : Fault) : Frames TextsFit (fault e : MemRun α) := fun _ =>
  .of_eq _ rfl

theorem send_texts (c : LibCall) : Frames TextsFit (send c) := fun _ => .of_eq _ rfl

theorem applyPwm_texts (junk : PwmJunk) (pokey : PoKeysDevice) (port : DevicePort) :
    Frames TextsFit (applyPwm junk pokey port) := by
  have hblock : ∀ size i, Frames TextsFit (touch (.block size i)) := fun size i =>
    touch_frames fun _ _ h => by cases h
  refine .bind (hblock _ _) fun _ => .ite _ (fault_texts _) (.bind (hblock _ _) fun _ => ?_)
  exact .bind (send_texts _) fun _ => .pure _

theorem applyPort_texts (junk : PwmJunk) (pokey : PoKeysDevice) (port : DevicePort) :
    Frames TextsFit (applyPort junk pokey port) := by
  have hpins : ∀ count k, Frames TextsFit (touch (.pokeyPins count k)) := fun count k =>
    touch_frames fun _ _ h => by cases h
  refine .ite _ (.bind (hpins _ _) fun _ => .pure _) (.ite _ (.bind (hpins _ _) fun _ => .pure _)
    (.ite _ (.bind (hpins _ _) fun _ => .pure _) (.ite _ (applyPwm_texts _ _ _) ?_)))
  exact .bind (send_texts _) fun _ => .pure _

theorem applySlot_texts (junk : ℕ → PwmJunk) (d : Device) (pokey : PoKeysDevice) (i : ℕ) :
    Frames TextsFit (applySlot junk d pokey i) :=
  .bind (portAt_frames d (fitsText_pins i)) fun _ => applyPort_texts _ _ _

theorem applyConfiguration_texts (junk : ℕ → PwmJunk) (d : Device) :
    Frames TextsFit (applyConfiguration junk d) := by
  refine .bind (.bind (pokeyOf_frames _ d) fun pokey => .bind ?_ fun _ => .pure _) fun _ => .pure _
  exact .foldlM (fun i _ pokey => applySlot_texts junk d pokey i) pokey

/-! ### Dumping -/

/-- The slots of the table of `d`. -/
def slotsOf (d : Device) : Set Access := {a | ∃ k : ℕ, k < d.numberOfPins.toNat ∧ a = .pins k}

theorem dumpDevice_frames (d : Device) : Frames (UsesOnly (· ∈ slotsOf d)) (dumpDevice d) := by
  have hrow : ∀ y < d.numberOfPins.toNat,
      Frames (UsesOnly (· ∈ slotsOf d)) (do let _ ← portAt d (y : ℕ); pure () : MemRun Unit) := by
    intro y hy
    exact .bind (portAt_frames d ⟨y, hy, rfl⟩) fun _ => .pure _
  unfold dumpDevice
  dsimp only
  refine .ite _ ?_ (.bind (pokeyOf_frames _ d) fun _ => ?_)
  · exact .foldlM (fun y hy _ => hrow y (List.mem_range.1 hy)) ()
  · exact .foldlM (fun y hy _ => hrow y (List.mem_range.1 hy)) ()

/-- `dumpDevices` keeps the registry and uses only slots of its tables. -/
def Dumps (w w' : World) : Prop :=
  w'.devices = w.devices ∧
    UsesOnly (fun a => ∃ i d, w.devices i = some d ∧ a ∈ slotsOf d) w.mem w'.mem

instance : IsPreorder World Dumps where
  refl := fun _ => ⟨rfl, .of_eq _ rfl⟩
  trans := fun w w' w'' h h' => by
    refine ⟨h'.1.trans h.1, h.2.trans ?_⟩
    rw [← h.1]
    exact h'.2

theorem dumpDevices_frames : Frames Dumps dumpDevices := by
  intro w
  refine Frames.foldlM (R := Dumps) (fun i _ _ => ?_) () w
  intro w
  cases hd : w.devices i with
  | none =>
    have hread : (deviceAt i).run w = .error .nullDevice w := by
      simp only [deviceAt, EStateM.run, hd]
    rw [bind_of_error hread]
    exact refl w
  | some d =>
    have hread : (deviceAt i).run w = .ok d w := by simp only [deviceAt, EStateM.run, hd]
    rw [bind_of_ok hread]
    obtain ⟨new, hnew, hslots⟩ := dumpDevice_frames d w.mem
    have huses : UsesOnly (fun a => ∃ i d, w.devices i = some d ∧ a ∈ slotsOf d) w.mem
        (final ((dumpDevice d).run w.mem)) := ⟨new, hnew, fun a ha => ⟨i, d, hd, hslots a ha⟩⟩
    cases hrun : (dumpDevice d).run w.mem with
    | ok u m =>
      rw [hrun] at huses
      rw [onMem_of_ok hrun]
      exact ⟨rfl, huses⟩
    | error e m =>
      rw [hrun] at huses
      rw [onMem_of_error hrun]
      exact ⟨rfl, huses⟩

/-- A slot is no text. -/
theorem Dumps.textsFit {w w' : World} (h : Dumps w w') : TextsFit w.mem w'.mem := by
  refine h.2.imp ?_
  rintro a ⟨i, d, -, k, -, rfl⟩
  exact fitsText_pins k

theorem dumpDevices_texts {w w' : World} (h : dumpDevices.run w = .ok () w') :
    TextsFit w.mem w'.mem := by
  have hframe := dumpDevices_frames w
  rw [h] at hframe
  exact hframe.textsFit

end SimPokey
