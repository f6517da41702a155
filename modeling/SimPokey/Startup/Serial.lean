import SimPokey.Startup.Turns

/-!
# Serial numbers

The network reports a serial number as an unsigned 32-bit number, the registry holds strings, and
`main` renders the number with the signed conversion `"%d"`.  For a registry of canonical decimal
numerals, `serialMatch_iff` says for which numbers the search finds the record it is meant to find:
all those below `2 ^ 31`.
-/

namespace SimPokey

open FaultState

/-! ### The rendering -/

/-- The string of a 32-bit number is the numeral of `c` exactly when `c` is that number and the
number does not reach into the sign bit. -/
theorem snprintfD_eq_repr {s : ℕ} (hs : s < 2 ^ 32) (c : ℕ) :
    snprintfD s = Nat.repr c ↔ c = s ∧ s < 2 ^ 31 := by
  have hrepr : Nat.repr c = Int.repr (c : ℤ) := rfl
  rw [snprintfD, hrepr]
  constructor
  · intro h
    have hval : (if s < 2 ^ 31 then (s : ℤ) else s - 2 ^ 32) = c := Int.repr_injective h
    split_ifs at hval with hlt
    · exact ⟨by omega, hlt⟩
    · -- a negative number is nobody's numeral
      omega
  · rintro ⟨rfl, hlt⟩
    rw [if_pos hlt]

/-! ### The search -/

/-- The searched slots hold records whose serial numbers are the numerals of the 32-bit numbers
`num`. -/
structure Numbered (w : World) (num : ℕ → ℕ) : Prop where
  slot : ∀ i < w.numberOfDevices, ∃ d, w.devices i = some d ∧ d.serialNumber = Nat.repr (num i)
  lt : ∀ i < w.numberOfDevices, num i < 2 ^ 32

/-- The search for the number `s` finds the first record that denotes it, and no other. -/
structure SerialMatch (w : World) (num : ℕ → ℕ) (addr s : ℕ) : Prop where
  first : ∀ i < w.numberOfDevices, num i = s → (∀ j < i, num j ≠ s) →
    ∃ d, w.devices i = some d ∧
      (getDeviceBySerialNumber addr (snprintfD s)).run w = .ok (some { d with addr := addr }) w
  missing : (∀ i < w.numberOfDevices, num i ≠ s) →
    (getDeviceBySerialNumber addr (snprintfD s)).run w = .ok none w
  noOther : ∀ d w', (getDeviceBySerialNumber addr (snprintfD s)).run w = .ok (some d) w' →
    d.serialNumber = Nat.repr s

theorem Numbered.stopsAt_iff {w : World} {num : ℕ → ℕ} (h : Numbered w num) {s : ℕ}
    (hs : s < 2 ^ 32) {i : ℕ} (hi : i < w.numberOfDevices) :
    stopsAt w (snprintfD s) i = true ↔ num i = s ∧ s < 2 ^ 31 := by
  obtain ⟨d, hd, hserial⟩ := h.slot i hi
  rw [← snprintfD_eq_repr hs, stopsAt, hd, Option.elim_some, beq_iff_eq, hserial]

/-- No searched slot is empty, so the search returns: the first record that denotes the number,
if the number is rendered as it is meant. -/
theorem Numbered.search {w : World} {num : ℕ → ℕ} (h : Numbered w num) (addr : ℕ) {s : ℕ}
    (hs : s < 2 ^ 32) :
    (s < 2 ^ 31 ∧ ∃ i < w.numberOfDevices, num i = s ∧ (∀ j < i, num j ≠ s) ∧
        ∃ d, w.devices i = some d ∧ d.serialNumber = Nat.repr s ∧
          (getDeviceBySerialNumber addr (snprintfD s)).run w =
            .ok (some { d with addr := addr }) w) ∨
      ((2 ^ 31 ≤ s ∨ ∀ i < w.numberOfDevices, num i ≠ s) ∧
        (getDeviceBySerialNumber addr (snprintfD s)).run w = .ok none w) := by
  have hrun : (getDeviceBySerialNumber addr (snprintfD s)).run w =
      (getDeviceFrom addr (snprintfD s) (List.range w.numberOfDevices)).run w := rfl
  rw [hrun, getDeviceFrom_run]
  cases hfind : (List.range w.numberOfDevices).find? (stopsAt w (snprintfD s)) with
  | none =>
    right
    refine ⟨?_, rfl⟩
    rw [List.find?_range_eq_none] at hfind
    by_cases hlt : s < 2 ^ 31
    · refine Or.inr fun i hi hnum => ?_
      have hstop : stopsAt w (snprintfD s) i = true := (h.stopsAt_iff hs hi).2 ⟨hnum, hlt⟩
      simpa [hstop] using hfind i hi
    · exact Or.inl (by omega)
  | some i =>
    left
    rw [List.find?_range_eq_some] at hfind
    obtain ⟨hstop, hi, hbefore⟩ := hfind
    rw [List.mem_range] at hi
    obtain ⟨hnum, hlt⟩ := (h.stopsAt_iff hs hi).1 hstop
    obtain ⟨d, hd, hserial⟩ := h.slot i hi
    refine ⟨hlt, i, hi, hnum, fun j hj hj' => ?_, d, hd, hnum ▸ hserial, by simp only [hd]⟩
    have hstop' : stopsAt w (snprintfD s) j = true :=
      (h.stopsAt_iff hs (by omega)).2 ⟨hj', hlt⟩
    simpa [hstop'] using hbefore j hj

/-- **Which serial numbers match.** -/
theorem serialMatch_iff {w : World} {num : ℕ → ℕ} (h : Numbered w num) (addr : ℕ)
    (networkDevice : NetworkDeviceSummary) :
    SerialMatch w num addr networkDevice.serialNumber ↔
      networkDevice.serialNumber < 2 ^ 31 ∨
        ∀ i < w.numberOfDevices, num i ≠ networkDevice.serialNumber := by
  have hsearch := h.search addr networkDevice.serialNumber_lt
  generalize networkDevice.serialNumber = s at hsearch ⊢
  rcases hsearch with ⟨hlt, i, hi, hnum, hfirst, d, hd, hserial, hrun⟩ | ⟨hnot, hrun⟩
  · refine iff_of_true ⟨fun i' hi' hnum' hfirst' => ?_, fun hmiss => ?_, fun d' w' hok => ?_⟩
      (Or.inl hlt)
    · have hii : i' = i := by
        rcases lt_trichotomy i' i with hlt' | heq | hgt
        · exact absurd hnum' (hfirst i' hlt')
        · exact heq
        · exact absurd hnum (hfirst' i hgt)
      exact ⟨d, hii ▸ hd, hrun⟩
    · exact absurd hnum (hmiss i hi)
    · rw [hrun] at hok
      cases hok
      exact hserial
  · constructor
    · intro hmatch
      rcases hnot with hge | hmiss
      · refine Or.inr fun i hi hnum => ?_
        -- the first record that denotes `s` would have to be found
        have hex : ∃ k, k < w.numberOfDevices ∧ num k = s := ⟨i, hi, hnum⟩
        have hfound := Nat.find_spec hex
        obtain ⟨d, hd, hok⟩ := hmatch.first (Nat.find hex) hfound.1 hfound.2 fun j hj hjs =>
          Nat.find_min hex hj ⟨hj.trans hfound.1, hjs⟩
        rw [hrun] at hok
        cases hok
      · exact Or.inr hmiss
    · intro hcond
      have hmiss : ∀ i < w.numberOfDevices, num i ≠ s := by
        rcases hcond with hlt | hmiss
        · rcases hnot with hge | hmiss
          · omega
          · exact hmiss
        · exact hmiss
      refine ⟨fun i hi hnum => absurd hnum (hmiss i hi), fun _ => hrun, fun d w' hok => ?_⟩
      rw [hrun] at hok
      cases hok

/-! ### Registries of numerals -/

/-- A registry of devices with these serial numbers, all searched. -/
def numeralRegistry (nums : List UInt32) : World :=
  { World.init with
    devices := fun i => nums[i]?.map fun (n : UInt32) =>
      { Device.cleared with serialNumber := Nat.repr n.toNat }
    numberOfDevices := nums.length }

/-- The number of the slot `i`. -/
def numAt (nums : List UInt32) (i : ℕ) : ℕ := (nums[i]?.getD 0).toNat

theorem numbered_numeralRegistry (nums : List UInt32) :
    Numbered (numeralRegistry nums) (numAt nums) where
  slot := fun i hi => by
    have hget : nums[i]? = some nums[i] := List.getElem?_eq_getElem hi
    refine ⟨{ Device.cleared with serialNumber := Nat.repr nums[i].toNat }, ?_, ?_⟩
    · simp only [numeralRegistry, hget, Option.map_some]
    · simp only [numAt, hget, Option.getD_some]
  lt := fun i _ => UInt32.toNat_lt _

theorem serialMatch_small :
    SerialMatch (numeralRegistry [30112, 40001]) (numAt [30112, 40001]) 7 40001 :=
  (serialMatch_iff (numbered_numeralRegistry [30112, 40001]) 7 ⟨40001, by decide⟩).2
    (Or.inl (by decide))

/-- A device with the serial number 3000000000 is configured, and is not found. -/
theorem serialMatch_signed :
    (getDeviceBySerialNumber 7 (snprintfD 3000000000)).run (numeralRegistry [3000000000]) =
        .ok none (numeralRegistry [3000000000]) ∧
      ((numeralRegistry [3000000000]).devices 0).map Device.serialNumber = some "3000000000" ∧
      snprintfD 3000000000 = "-1294967296" ∧
      ¬ SerialMatch (numeralRegistry [3000000000]) (numAt [3000000000]) 7 3000000000 := by
  have hrun : (getDeviceBySerialNumber 7 (snprintfD 3000000000)).run
      (numeralRegistry [3000000000]) = .ok none (numeralRegistry [3000000000]) := by
    rcases (numbered_numeralRegistry [3000000000]).search 7 (s := 3000000000) (by decide) with
      ⟨hlt, -⟩ | ⟨-, hrun⟩
    · exact absurd hlt (by decide)
    · exact hrun
  refine ⟨hrun, by decide, by decide, fun h => ?_⟩
  obtain ⟨d, -, hok⟩ := h.first 0 (by decide) (by decide) fun j hj => absurd hj (Nat.not_lt_zero j)
  rw [hrun] at hok
  cases hok

end SimPokey
