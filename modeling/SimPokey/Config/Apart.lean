import SimPokey.Config.Registry
import SimPokey.Pin.LoadSequence

/-!
# Tables that share no record

The loaders put only new blocks into `pins[]`: started on a table that is empty, every pointer
below `numberOfPins` leads past the heap they found (`loadPorts_fresh`).  So the tables of two
devices of one load have no pointer in common (`loadDevicesFrom_apart`).
-/

namespace SimPokey

open FaultState LibConfig

/-- The pointers `pins[0..numberOfPins)`. -/
def pointersOf (d : Device) : List ℕ :=
  (List.range d.numberOfPins.toNat).filterMap fun (i : ℕ) => d.pins i

theorem Holds.pointersOf_eq {m : Memory} {d : Device} {T : List (ℕ × DevicePort)}
    (h : Holds m d T) : pointersOf d = T.map Prod.fst := by
  have hmap : (List.range T.length).map (fun (i : ℕ) => d.pins i) = (T.map Prod.fst).map some := by
    apply List.ext_getElem?
    intro i
    rw [List.getElem?_map, List.getElem?_map, List.getElem?_map]
    cases ht : T[i]? with
    | none =>
      rw [List.getElem?_eq_none (by simpa using List.getElem?_eq_none_iff.1 ht)]
      rfl
    | some t =>
      rw [List.getElem?_range (List.getElem?_eq_some_iff.1 ht).1]
      simp only [Option.map_some, h.slot i t ht]
  have hid : ((List.range T.length).map fun (i : ℕ) => d.pins i).filterMap id = T.map Prod.fst := by
    rw [hmap, List.filterMap_map]
    exact List.filterMap_some
  rw [pointersOf, h.count, Int.toNat_natCast, ← hid, List.filterMap_map]
  rfl

section Fresh

variable {Setting : Type} [LibConfig Setting]

/-- The slots below `numberOfPins` lead past the first `p` records, of which the heap has at
least as many. -/
structure PointsPast (p : ℕ) (d : Device) (m : Memory) : Prop where
  heap : p ≤ m.ports.length
  slot : ∀ i, 0 ≤ i → i < d.numberOfPins → ∀ q, d.pins i = some q → p ≤ q

/-- Storing a new record in the first free slot and counting it. -/
theorem PointsPast.store {p : ℕ} {d : Device} {m : Memory} (h : PointsPast p d m)
    (ports : List DevicePort) (accesses : List Access) :
    PointsPast p { d with
        pins := Function.update d.pins d.numberOfPins (some m.ports.length)
        numberOfPins := d.numberOfPins + 1 }
      { m with ports := m.ports ++ ports, accesses := accesses } where
  heap := by
    have hheap := h.heap
    show p ≤ (m.ports ++ ports).length
    rw [List.length_append]
    omega
  slot := fun i h0 hi q hq => by
    by_cases hlast : i = d.numberOfPins
    · simp only [hlast, Function.update_self, Option.some.injEq] at hq
      rw [← hq]
      exact h.heap
    · simp only [Function.update_of_ne hlast] at hq
      have hlt : i < d.numberOfPins + 1 := hi
      exact h.slot i h0 (by omega) q hq

theorem PointsPast.of_ports {p : ℕ} {d : Device} {m m' : Memory} (h : PointsPast p d m)
    (hports : m'.ports = m.ports) : PointsPast p d m' :=
  ⟨by rw [hports]; exact h.heap, h.slot⟩

/-- One turn of `loadPinConfiguration`, while `pinIndex` is `numberOfPins`. -/
theorem loadPinEntry_pointsPast {p : ℕ} {st st' : Device × ℤ} {entry : Setting} {m m' : Memory}
    (hrun : (loadPinEntry st entry).run m = .ok st' m') (hindex : st.2 = st.1.numberOfPins)
    (h : PointsPast p st.1 m) : st'.2 = st'.1.numberOfPins ∧ PointsPast p st'.1 m' := by
  unfold loadPinEntry at hrun
  split at hrun
  · cases hrun
    exact ⟨hindex, h⟩
  · rename_i pin _
    obtain ⟨found, m₁, hcheck, hrun⟩ := bind_ok_iff.1 hrun
    have hports := checkPinExistsInConfig_ports st.1 pin m
    rw [hcheck] at hports
    rw [run_ite] at hrun
    split_ifs at hrun with hfound
    · cases hrun
      exact ⟨hindex, h.of_ports hports⟩
    · split at hrun
      · cases hrun
        exact ⟨hindex, h.of_ports hports⟩
      · cases hrun
        refine ⟨by simp only [hindex], ?_⟩
        simp only [hindex]
        exact (h.of_ports hports).store _ _

/-- One turn of `loadPWMConfiguration`. -/
theorem loadPWMEntry_pointsPast {p : ℕ} {d d' : Device} {entry : Setting} {m m' : Memory}
    (hrun : (loadPWMEntry d entry).run m = .ok d' m') (h : PointsPast p d m) :
    PointsPast p d' m' := by
  unfold loadPWMEntry at hrun
  split at hrun
  · cases hrun
    exact h
  · split at hrun
    · cases hrun
      exact h
    · rename_i pin _
      obtain ⟨found, m₁, hcheck, hrun⟩ := bind_ok_iff.1 hrun
      have hports := checkPinExistsInConfig_ports d pin m
      rw [hcheck] at hports
      rw [run_ite] at hrun
      split_ifs at hrun with hfound
      · cases hrun
        exact h.of_ports hports
      · cases hrun
        exact (h.of_ports hports).store _ _

/-- **A load into an empty table stores only new blocks.** -/
theorem loadPorts_fresh {pins pwm : Option Setting} {d d' : Device} {m m' : Memory}
    (hempty : d.numberOfPins = 0) (hrun : (loadPorts pins pwm d).run m = .ok d' m') :
    PointsPast m.ports.length d' m' := by
  have hstart : PointsPast m.ports.length d m := ⟨le_rfl, fun i h0 hi => by omega⟩
  unfold loadPorts at hrun
  obtain ⟨r₁, m₁, hpins, hrun⟩ := bind_ok_iff.1 hrun
  obtain ⟨r₂, m₂, hpwm, hrun⟩ := bind_ok_iff.1 hrun
  cases hrun
  have hfirst : PointsPast m.ports.length r₁.2 m₁ := by
    unfold loadPinConfiguration at hpins
    cases pins with
    | none => cases hpins; exact hstart
    | some ports =>
      simp only [run_ite] at hpins
      split_ifs at hpins with hlen
      · cases hpins
        exact hstart
      · obtain ⟨st, m₂, hloop, hret⟩ := bind_ok_iff.1 hpins
        cases hret
        have hend := foldlM_partial
          (fun _ (st : Device × ℤ) m₁ => st.2 = st.1.numberOfPins ∧
            PointsPast m.ports.length st.1 m₁) ⟨hempty.symm, hstart⟩
          (fun _ _ _ _ _ _ hI hturn => loadPinEntry_pointsPast hturn hI.1 hI.2) hloop
        exact hend.2
  unfold loadPWMConfiguration at hpwm
  cases pwm with
  | none => cases hpwm; exact hfirst
  | some ports =>
    simp only [run_ite] at hpwm
    split_ifs at hpwm with hlen
    · cases hpwm
      exact hfirst
    · obtain ⟨d', m₂, hloop, hret⟩ := bind_ok_iff.1 hpwm
      cases hret
      exact foldlM_partial (fun _ d m₁ => PointsPast m.ports.length d m₁) hfirst
        (fun _ _ _ _ _ _ hI hturn => loadPWMEntry_pointsPast hturn hI) hloop

/-! ### The registry -/

theorem PointsPast.of_mem_pointersOf {p : ℕ} {d : Device} {m : Memory} (h : PointsPast p d m)
    {q : ℕ} (hq : q ∈ pointersOf d) : p ≤ q := by
  obtain ⟨i, hi, hslot⟩ := List.mem_filterMap.1 hq
  rw [List.mem_range] at hi
  exact h.slot i (by omega) (by omega) q hslot

/-- The turn for one device of a load with empty tables. -/
theorem loadDevice_fresh {junk : DeviceJunk} (hzero : junk.numberOfPins = 0) {i : ℕ} {g : Setting}
    {w w' : World} (h : (loadDevice junk i g).run w = .ok () w') :
    ∃ d, w'.devices i = some d ∧ ∀ q ∈ pointersOf d, w.mem.ports.length ≤ q := by
  unfold loadDevice at h
  obtain ⟨addr, w₁, h₁, h⟩ := bind_ok_iff.1 h
  cases h₁
  obtain ⟨d, w₂, h₂, h⟩ := bind_ok_iff.1 h
  obtain ⟨m', hports, rfl⟩ := onPart_ok_iff.1 h₂
  cases h
  have hempty : (newDevice junk w.brk g).numberOfPins = 0 := hzero
  exact ⟨d, Function.update_self ..,
    fun q hq => (loadPorts_fresh hempty hports).of_mem_pointersOf hq⟩

/-- **The tables of a load share no record.** -/
theorem loadDevicesFrom_apart {junk : ℕ → DeviceJunk} (hzero : ∀ j, (junk j).numberOfPins = 0)
    (gs : List Setting) : ∀ {i : ℕ} {w w' : World}, (loadDevicesFrom junk i gs).run w = .ok () w' →
      (∀ k < gs.length, ∀ d, w'.devices (i + k) = some d →
        ∀ q ∈ pointersOf d, w.mem.ports.length ≤ q) ∧
      ∀ k < gs.length, ∀ k' < gs.length, k ≠ k' → ∀ d d', w'.devices (i + k) = some d →
        w'.devices (i + k') = some d' → List.Disjoint (pointersOf d) (pointersOf d') := by
  induction gs with
  | nil => exact fun _ => ⟨by simp, by simp⟩
  | cons g gs ih =>
    intro i w w' h
    obtain ⟨_, w₁, h₁, h₂⟩ := bind_ok_iff.1 h
    obtain ⟨hbeyond, hapart⟩ := ih h₂
    obtain ⟨d₀, hslot₀, hfresh⟩ := loadDevice_fresh (hzero i) h₁
    -- the pointers of the first device lie in the heap the others start from
    have hbelow : ∀ q ∈ pointersOf d₀, q < w₁.mem.ports.length := by
      obtain ⟨w₁', hrun, hbuilds⟩ := loadDevice_builds (hzero i) i g w
      rw [h₁] at hrun
      cases hrun
      obtain ⟨d, T, hslot, hT, -⟩ := hbuilds.tables 0 g rfl
      obtain rfl : d₀ = d := Option.some.inj (hslot₀.symm.trans hslot)
      intro q hq
      rw [hT.pointersOf_eq] at hq
      obtain ⟨t, ht, rfl⟩ := List.mem_map.1 hq
      exact hT.fst_lt ht
    have hgrow : w.mem.ports.length ≤ w₁.mem.ports.length := by
      obtain ⟨w₁', hrun, hbuilds⟩ := loadDevice_builds (hzero i) i g w
      rw [h₁] at hrun
      cases hrun
      exact hbuilds.ports.length_le
    have hfirst : ∀ d, w'.devices (i + 0) = some d → d = d₀ := by
      intro d hd
      rw [Nat.add_zero, (loadDevicesFrom_ok h₂).others i (by omega), hslot₀] at hd
      exact (Option.some.inj hd).symm
    have hshift : ∀ k, i + (k + 1) = i + 1 + k := fun k => by omega
    have hcross : ∀ k < gs.length, ∀ d, w'.devices (i + (k + 1)) = some d →
        List.Disjoint (pointersOf d₀) (pointersOf d) := by
      intro k hk d hd q hq₀ hq
      have hlt := hbelow q hq₀
      have hge := hbeyond k hk d (hshift k ▸ hd) q hq
      omega
    constructor
    · intro k hk d hd q hq
      cases k with
      | zero => exact hfresh q (hfirst d hd ▸ hq)
      | succ k => exact hgrow.trans (hbeyond k (Nat.lt_of_succ_lt_succ hk) d (hshift k ▸ hd) q hq)
    · intro k hk k' hk' hne d d' hd hd'
      cases k with
      | zero =>
        obtain ⟨k', rfl⟩ := Nat.exists_eq_succ_of_ne_zero hne.symm
        rw [hfirst d hd]
        exact hcross k' (Nat.lt_of_succ_lt_succ hk') d' hd'
      | succ k =>
        cases k' with
        | zero =>
          rw [hfirst d' hd']
          exact (hcross k (Nat.lt_of_succ_lt_succ hk) d hd).symm
        | succ k' =>
          exact hapart k (Nat.lt_of_succ_lt_succ hk) k' (Nat.lt_of_succ_lt_succ hk')
            (fun heq => hne (congrArg _ heq)) d d' (hshift k ▸ hd) (hshift k' ▸ hd')

/-- A load with empty tables sends and logs nothing. -/
theorem loadDevicesFrom_silent {junk : ℕ → DeviceJunk} (hzero : ∀ j, (junk j).numberOfPins = 0)
    (gs : List Setting) : ∀ {i : ℕ} {w w' : World}, (loadDevicesFrom junk i gs).run w = .ok () w' →
      w'.mem.sent = w.mem.sent ∧ w'.mem.messages = w.mem.messages := by
  induction gs with
  | nil =>
    intro i w w' h
    cases h
    exact ⟨rfl, rfl⟩
  | cons g gs ih =>
    intro i w w' h
    obtain ⟨_, w₁, h₁, h₂⟩ := bind_ok_iff.1 h
    have hturn : w₁.mem.sent = w.mem.sent ∧ w₁.mem.messages = w.mem.messages := by
      unfold loadDevice at h₁
      obtain ⟨addr, w₂, hmalloc, h₁⟩ := bind_ok_iff.1 h₁
      cases hmalloc
      obtain ⟨d, w₃, hload, h₁⟩ := bind_ok_iff.1 h₁
      obtain ⟨m', hports, rfl⟩ := onPart_ok_iff.1 hload
      cases h₁
      have hempty : Holds w.mem (newDevice (junk i) w.brk g) [] := holds_nil (hzero i)
      obtain ⟨r₁, d₁, m₁, r₂, d₂, m₂, T, hpins, hpwm, hext, -⟩ :=
        loaders_extends hempty (getMember g "pins") (getMember g "pwm")
      have hports' : (loadPorts (getMember g "pins") (getMember g "pwm")
          (newDevice (junk i) w.brk g)).run w.mem = .ok d₂ m₂ := by
        rw [loadPorts, bind_of_ok hpins, bind_of_ok hpwm]
        rfl
      cases hports.symm.trans hports'
      exact ⟨hext.sent, hext.messages⟩
    obtain ⟨hsent, hmessages⟩ := ih h₂
    exact ⟨hsent.trans hturn.1, hmessages.trans hturn.2⟩

end Fresh

end SimPokey
