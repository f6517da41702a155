import SimPokey.Lib.SlotPass
import SimPokey.Startup.Lookup
import SimPokey.Startup.Serial

/-!
# The registry after the startup loop

With as many devices on the network as in the configuration, the loop is a pass that searches the
table it overwrites: its serial numbers are those of `SlotPass.pass`, and the connected records
are the ones it placed (`Refines`).  `registry_kept_iff` says for which enumerations the registry
comes out right.
-/

namespace SimPokey

open FaultState LibConfig SlotPass

/-! ### Serial numbers as strings -/

/-- The string asked for in the turn `i`. -/
def askedFor (env : Env) (i : ℕ) : String :=
  (env.network[i]?).elim "" fun nd => snprintfD nd.serialNumber

theorem askedFor_of_get {env : Env} {i : ℕ} {nd : NetworkDeviceSummary}
    (h : env.network[i]? = some nd) : askedFor env i = snprintfD nd.serialNumber := by
  rw [askedFor, h]
  rfl

/-- Below `2 ^ 31` the string of a serial number is its canonical decimal, and no other number
below `2 ^ 32` has the same string. -/
theorem snprintfD_eq_repr_iff {s c : ℕ} (hs : s < 2 ^ 32) (hc : c < 2 ^ 31) :
    snprintfD s = Nat.repr c ↔ s = c := by
  rw [snprintfD_eq_repr hs]
  constructor
  · rintro ⟨rfl, -⟩
    rfl
  · rintro rfl
    exact ⟨rfl, hc⟩

/-! ### The loop as a pass over the table -/

/-- The turn `i` finds the device willing. -/
def Willing (env : Env) (i : ℕ) : Prop := (env.connect i).isSome

/-- Before the turn `i` the table holds the serial numbers of the pass, and the connected records
are the ones placed so far. -/
structure Refines (env : Env) (n : ℕ) (t : ℕ → String) (i : ℕ) (w : World) : Prop where
  numberOfDevices : w.numberOfDevices = n
  activeDevices : w.activeDevices = n
  slot : ∀ j < n, ∃ d, w.devices j = some d ∧
    d.serialNumber = pass n (askedFor env) (Willing env) t i j ∧
    (d.hasPokey = 1 ↔ j < i ∧ Placed n (askedFor env) (Willing env) t j)

theorem Refines.hit_iff {env : Env} {n i : ℕ} {t : ℕ → String} {w : World}
    (h : Refines env n t i w) (s : String) :
    Hit n (pass n (askedFor env) (Willing env) t i) s ↔ ∃ j < n, HasSerial w j s := by
  constructor
  · rintro ⟨j, hj, hs⟩
    obtain ⟨d, hd, hserial, -⟩ := h.slot j hj
    exact ⟨j, hj, d, hd, hserial.trans hs⟩
  · rintro ⟨j, hj, d, hd, hs⟩
    obtain ⟨d', hd', hserial, -⟩ := h.slot j hj
    obtain rfl : d = d' := Option.some.inj (hd.symm.trans hd')
    exact ⟨j, hj, hserial.symm.trans hs⟩

/-- A turn that places nothing leaves the simulation as it is. -/
theorem Refines.skip {env : Env} {n i b : ℕ} {t : ℕ → String} {w : World}
    (h : Refines env n t i w) (hnot : ¬ Placed n (askedFor env) (Willing env) t i) :
    Refines env n t (i + 1) { w with brk := b } := by
  refine ⟨h.numberOfDevices, h.activeDevices, fun j hj => ?_⟩
  obtain ⟨d, hd, hserial, hconn⟩ := h.slot j hj
  refine ⟨d, hd, by rw [pass_succ_of_not_placed hnot, hserial], hconn.trans ?_⟩
  constructor
  · rintro ⟨hji, hp⟩
    exact ⟨by omega, hp⟩
  · rintro ⟨hji, hp⟩
    have hne : j ≠ i := fun e => hnot (e ▸ hp)
    exact ⟨by omega, hp⟩

/-- Every turn is a turn of the pass. -/
theorem Refines.turn {env : Env} {n i : ℕ} {t : ℕ → String} {w w' : World}
    (h : Refines env n t i w) (hturn : Turn env i (askedFor env i) w w') :
    Refines env n t (i + 1) w' := by
  cases hturn with
  | missed hmiss hw' =>
    subst hw'
    refine h.skip fun hp => ?_
    obtain ⟨j, hj, hserial⟩ := (h.hit_iff _).1 hp.1
    exact (hmiss j (h.numberOfDevices ▸ hj)).not_hasSerial hserial
  | refused hhit hconnect hw' =>
    subst hw'
    refine h.skip fun hp => ?_
    have hwilling : (env.connect i).isSome := hp.2
    rw [hconnect] at hwilling
    cases hwilling
  | up j hj d hslot hs hconnect pokey mem hw' =>
    subst hw'
    have hhit : Hit n (pass n (askedFor env) (Willing env) t i) (askedFor env i) :=
      (h.hit_iff _).2 ⟨j, h.numberOfDevices ▸ hj, d, hslot, hs⟩
    have hplaced : Placed n (askedFor env) (Willing env) t i := ⟨hhit, hconnect⟩
    refine ⟨h.numberOfDevices, h.activeDevices, fun k hk => ?_⟩
    rw [pass_succ_of_placed hplaced]
    by_cases hki : k = i
    · subst hki
      refine ⟨_, Function.update_self .., ?_, ?_⟩
      · rw [Function.update_self]
        exact hs
      · exact iff_of_true rfl ⟨by omega, hplaced⟩
    · obtain ⟨d', hd', hserial, hconn⟩ := h.slot k hk
      refine ⟨d', by simpa only [Function.update_of_ne hki] using hd', ?_, hconn.trans ?_⟩
      · rw [Function.update_of_ne hki]
        exact hserial
      · constructor
        · rintro ⟨hlt, hp⟩
          exact ⟨by omega, hp⟩
        · rintro ⟨hlt, hp⟩
          exact ⟨by omega, hp⟩

/-! ### The configured serial numbers -/

variable {Setting : Type} [LibConfig Setting]

/-- The table of the configured serial numbers. -/
def configuredTable (C : List ℕ) (j : ℕ) : String := (C[j]?).elim "" Nat.repr

theorem configuredTable_of_lt {C : List ℕ} {j : ℕ} (h : j < C.length) :
    configuredTable C j = Nat.repr C[j] := by
  rw [configuredTable, List.getElem?_eq_getElem h]
  rfl

theorem configuredTable_injective {C : List ℕ} (hC : C.Nodup) :
    ∀ i < C.length, ∀ j < C.length, configuredTable C i = configuredTable C j → i = j := by
  intro i hi j hj h
  rw [configuredTable_of_lt hi, configuredTable_of_lt hj] at h
  exact (List.Nodup.getElem_inj_iff hC).1 (Nat.repr_inj.1 h)

/-- The registry as the loop finds it holds the configured serial numbers, none connected. -/
theorem Registered.refines {junk : ℕ → DeviceJunk} {gs : List Setting} {C : List ℕ} {env : Env}
    {w : World} (hC : gs.map (fun g => lookupString g "serialNumber") =
      C.map fun c => some (Nat.repr c)) (h : Registered junk gs C.length w) :
    Refines env C.length (configuredTable C) 0 w := by
  have hlen : gs.length = C.length := by simpa using congrArg List.length hC
  refine ⟨h.numberOfDevices, h.activeDevices.trans hlen, fun j hj => ?_⟩
  have hj' : j < gs.length := by omega
  obtain ⟨d, hd, hgrown⟩ := h.slot j gs[j] (List.getElem?_eq_getElem hj')
  have hserial : lookupString gs[j] "serialNumber" = some (Nat.repr C[j]) := by
    have hget := congrArg (fun l => l[j]?) hC
    simpa [List.getElem?_eq_getElem hj', List.getElem?_eq_getElem hj] using hget
  refine ⟨d, hd, ?_, ?_⟩
  · rw [hgrown.device, pass_zero, configuredTable_of_lt hj]
    simp only [newDevice, hserial, Option.getD_some]
  · rw [hgrown.device]
    simp [newDevice]

/-! ### The result -/

/-- The connected records are exactly those of the configured serial numbers that were enumerated
and whose connection attempt succeeded. -/
def ConnectedExactly (env : Env) (C : List ℕ) (w : World) : Prop :=
  ∀ s, (∃ j < w.activeDevices, ∃ d, w.devices j = some d ∧ d.serialNumber = s ∧ d.hasPokey = 1) ↔
    ∃ i nd, env.network[i]? = some nd ∧ nd.serialNumber ∈ C ∧ (env.connect i).isSome ∧
      s = Nat.repr nd.serialNumber

/-- Every configured serial number occurs exactly once. -/
def SerialsKept (C : List ℕ) (w : World) : Prop :=
  ∀ c ∈ C, ∃! j, j < w.activeDevices ∧ HasSerial w j (Nat.repr c)

/-- Every device that is configured and connects is on the network where it is configured. -/
def InPlace (env : Env) (C : List ℕ) : Prop :=
  ∀ i nd, env.network[i]? = some nd → nd.serialNumber ∈ C → (env.connect i).isSome →
    C[i]? = some nd.serialNumber

section Pass

variable {env : Env} {C : List ℕ}

theorem askedFor_eq_repr_iff {i c : ℕ} {nd : NetworkDeviceSummary} (hlt : ∀ c ∈ C, c < 2 ^ 31)
    (hnd : env.network[i]? = some nd) (hc : c ∈ C) :
    askedFor env i = Nat.repr c ↔ nd.serialNumber = c := by
  rw [askedFor_of_get hnd]
  exact snprintfD_eq_repr_iff nd.serialNumber_lt (hlt c hc)

theorem hit_configuredTable_iff {i : ℕ} {nd : NetworkDeviceSummary} (hlt : ∀ c ∈ C, c < 2 ^ 31)
    (hnd : env.network[i]? = some nd) :
    Hit C.length (configuredTable C) (askedFor env i) ↔ nd.serialNumber ∈ C := by
  constructor
  · rintro ⟨j, hj, h⟩
    rw [configuredTable_of_lt hj] at h
    have hmem : C[j] ∈ C := List.getElem_mem hj
    rw [(askedFor_eq_repr_iff hlt hnd hmem).1 h.symm]
    exact hmem
  · intro hmem
    obtain ⟨j, hj, hget⟩ := List.getElem_of_mem hmem
    refine ⟨j, hj, ?_⟩
    rw [configuredTable_of_lt hj, hget]
    exact ((askedFor_eq_repr_iff hlt hnd hmem).2 rfl).symm

/-- The devices are in place when every key of the pass that is written goes to its own slot. -/
theorem inPlace_iff (hlt : ∀ c ∈ C, c < 2 ^ 31) (hsize : env.network.length = C.length) :
    InPlace env C ↔ ∀ i < C.length, Hit C.length (configuredTable C) (askedFor env i) →
      Willing env i → askedFor env i = configuredTable C i := by
  constructor
  · intro h i hi hhit hwilling
    have hnd := List.getElem?_eq_getElem (hsize ▸ hi : i < env.network.length)
    have hmem := (hit_configuredTable_iff hlt hnd).1 hhit
    have hget := h i _ hnd hmem hwilling
    rw [configuredTable, hget]
    exact (askedFor_eq_repr_iff hlt hnd hmem).2 rfl
  · intro h i nd hnd hmem hwilling
    have hi : i < C.length := hsize ▸ (List.getElem?_eq_some_iff.1 hnd).1
    have heq := h i hi ((hit_configuredTable_iff hlt hnd).2 hmem) hwilling
    rw [configuredTable_of_lt hi] at heq
    rw [List.getElem?_eq_getElem hi, (askedFor_eq_repr_iff hlt hnd (List.getElem_mem hi)).1 heq]

theorem Refines.serialsKept_iff {w : World}
    (h : Refines env C.length (configuredTable C) C.length w) :
    SerialsKept C w ↔ ∀ k < C.length, ∃! j, j < C.length ∧
      pass C.length (askedFor env) (Willing env) (configuredTable C) C.length j =
        configuredTable C k := by
  have hslot : ∀ (s : String) (j : ℕ), (j < w.activeDevices ∧ HasSerial w j s) ↔
      (j < C.length ∧
        pass C.length (askedFor env) (Willing env) (configuredTable C) C.length j = s) := by
    intro s j
    rw [h.activeDevices]
    refine and_congr_right fun hj => ?_
    obtain ⟨d, hd, hserial, -⟩ := h.slot j hj
    rw [← hserial]
    constructor
    · rintro ⟨d', hd', hs⟩
      obtain rfl : d = d' := Option.some.inj (hd.symm.trans hd')
      exact hs
    · exact fun hs => ⟨d, hd, hs⟩
  simp only [SerialsKept, hslot]
  constructor
  · intro hkept k hk
    rw [configuredTable_of_lt hk]
    exact hkept _ (List.getElem_mem hk)
  · intro hkept c hc
    obtain ⟨k, hk, rfl⟩ := List.getElem_of_mem hc
    have hone := hkept k hk
    rwa [configuredTable_of_lt hk] at hone

/-- With every device in place the right records are connected. -/
theorem Refines.connectedExactly {w : World}
    (h : Refines env C.length (configuredTable C) C.length w) (hlt : ∀ c ∈ C, c < 2 ^ 31)
    (hsize : env.network.length = C.length) (hplace : InPlace env C) :
    ConnectedExactly env C w := by
  have hhome := (inPlace_iff hlt hsize).1 hplace
  have hsame := fun i (hi : i ≤ C.length) => pass_eq_of_home hhome i hi
  intro s
  constructor
  · rintro ⟨j, hj, d, hd, rfl, hconn⟩
    rw [h.activeDevices] at hj
    obtain ⟨d', hd', hserial, hiff⟩ := h.slot j hj
    obtain rfl : d = d' := Option.some.inj (hd.symm.trans hd')
    obtain ⟨-, hhit, hwilling⟩ := hiff.1 hconn
    rw [hsame j hj.le] at hhit
    have hnd := List.getElem?_eq_getElem (hsize ▸ hj : j < env.network.length)
    have hmem := (hit_configuredTable_iff hlt hnd).1 hhit
    refine ⟨j, _, hnd, hmem, hwilling, ?_⟩
    rw [hserial, hsame _ le_rfl, ← hhome j hj hhit hwilling]
    exact (askedFor_eq_repr_iff hlt hnd hmem).2 rfl
  · rintro ⟨i, nd, hnd, hmem, hwilling, rfl⟩
    have hi : i < C.length := hsize ▸ (List.getElem?_eq_some_iff.1 hnd).1
    have hhit := (hit_configuredTable_iff hlt hnd).2 hmem
    obtain ⟨d, hd, hserial, hiff⟩ := h.slot i hi
    refine ⟨i, h.activeDevices ▸ hi, d, hd, ?_, hiff.2 ⟨hi, ?_, hwilling⟩⟩
    · rw [hserial, hsame _ le_rfl, ← hhome i hi hhit hwilling]
      exact (askedFor_eq_repr_iff hlt hnd hmem).2 rfl
    · rwa [hsame i hi.le]

end Pass

/-- **The registry comes out right exactly for the enumerations in which every device that is
configured and connects stands where the configuration has it.** -/
theorem registry_kept_iff (root : Setting) (junk : ℕ → DeviceJunk) (simJunk : SimulatorJunk)
    (env : Env) (C : List ℕ) (w : World)
    (hC : (devicesOf root).map (fun g => lookupString g "serialNumber") =
      C.map fun c => some (Nat.repr c))
    (hnodup : C.Nodup) (hlt : ∀ c ∈ C, c < 2 ^ 31) (hsize : env.network.length = C.length)
    (hmain : (main (some root) junk simJunk env).run World.init = .ok 0 w) :
    ConnectedExactly env C w ∧ SerialsKept C w ↔ InPlace env C := by
  obtain ⟨w₀, hreg, hloop⟩ := main_registered hmain
  rw [hsize] at hreg
  have hrefines : Refines env C.length (configuredTable C) C.length w := by
    refine startupLoop_invariant (Refines env C.length (configuredTable C)) (hreg.refines hC)
      (fun i hi w w' hI hturn => hI.turn ?_) hsize.ge (hsize ▸ hloop)
    rwa [askedFor_of_get (List.getElem?_eq_getElem hi)]
  have hkept := pass_keeps_iff (askedFor env) (Willing env) (configuredTable_injective hnodup)
  constructor
  · rintro ⟨-, hserials⟩
    exact (inPlace_iff hlt hsize).2 (hkept.1 (hrefines.serialsKept_iff.1 hserials))
  · intro hplace
    refine ⟨hrefines.connectedExactly hlt hsize hplace, hrefines.serialsKept_iff.2 ?_⟩
    exact hkept.2 ((inPlace_iff hlt hsize).1 hplace)

/-- The devices 17 and 42. -/
def twoDevices : Tree :=
  Tree.file [Tree.device "17" [] [], Tree.device "42" [] []] [Tree.simulator 8091]

/-- They are enumerated in the order of the configuration, and the second one refuses. -/
def inOrder : Env := .ofSerials [17, 42] fun i => if i = 0 then some (.cleared 55) else none

theorem registry_kept_iff_inOrder : ∃ w, cleanRun twoDevices inOrder = .ok 0 w ∧
    ConnectedExactly inOrder [17, 42] w ∧ SerialsKept [17, 42] w := by
  have hmain := ok_of_value (by decide +kernel : value (cleanRun twoDevices inOrder) = some 0)
  refine ⟨_, hmain, (registry_kept_iff _ _ _ _ [17, 42] _ (by decide) (by decide) (by decide) rfl
    hmain).2 fun i nd hnd _ _ => ?_⟩
  have hserial := congrArg (Option.map NetworkDeviceSummary.serialNumber) hnd
  rw [← List.getElem?_map] at hserial
  exact hserial

/-- They are enumerated the other way round. -/
def swapped : Env := .ofSerials [42, 17] fun _ => some (.cleared 55)

/-- The record of the device 17 is overwritten before its turn. -/
theorem swapped_serials : (List.range 2).map (fun j =>
    ((final (cleanRun twoDevices swapped)).devices j).map Device.serialNumber) =
      [some "42", some "42"] := by
  decide +kernel

theorem registry_not_kept_swapped : ¬ ∀ (root : Tree) (junk : ℕ → DeviceJunk)
    (simJunk : SimulatorJunk) (env : Env) (C : List ℕ) (w : World),
    (devicesOf root).map (fun g => lookupString g "serialNumber") =
      C.map (fun c => some (Nat.repr c)) →
    C.length ≤ maxDevices → C.Nodup → (∀ c ∈ C, c < 2 ^ 31) →
    env.network.length = C.length → (env.network.map NetworkDeviceSummary.serialNumber).Nodup →
    (main (some root) junk simJunk env).run World.init = .ok 0 w →
      ConnectedExactly env C w ∧ SerialsKept C w := by
  intro h
  have hmain := ok_of_value (by decide +kernel : value (cleanRun twoDevices swapped) = some 0)
  have hactive : (final (cleanRun twoDevices swapped)).activeDevices = 2 := by decide +kernel
  obtain ⟨-, hkept⟩ := h _ _ _ _ [17, 42] _ (by decide) (by decide) (by decide) (by decide) rfl
    (by decide) hmain
  obtain ⟨j, ⟨hj, d, hd, hs⟩, -⟩ := hkept 17 (by decide)
  rw [hactive] at hj
  have hserial := congrArg (fun l => l[j]?) swapped_serials
  have hne : Nat.repr 17 ≠ "42" := by decide
  interval_cases j
  · exact hne (by simpa [hd, hs] using hserial)
  · exact hne (by simpa [hd, hs] using hserial)

end SimPokey
