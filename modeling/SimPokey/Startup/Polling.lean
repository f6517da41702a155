import SimPokey.Startup.Lookup

/-!
# The polling loops the startup starts

Every thread of the startup loop is handed the address of the loop's local variable `y` and not
the device just connected (`startThread`).  `loopsApart_iff` says what this leaves of the polling:
the loops do as they should exactly when no device gets connected at all.
-/

namespace SimPokey

open FaultState LibConfig

/-! ### Ticks -/

/-- One tick of the timer of the thread `k`, on what `PK_DigitalIOGet` did: `timer->data` is the
argument the thread was started with. -/
def tick (k : ℕ) (reading : Reading) : WorldRun Unit := fun w =>
  match w.threads[k]? with
  | none => .ok () w
  | some .localInt => .error .wildDevice w
  | some (.device i) =>
      (do
        let device ← deviceAt i
        let device ← onMem (digitalIOTimerCallback device reading)
        change fun w => { w with devices := Function.update w.devices i (some device) }
        : WorldRun Unit).run w

/-- The ticks of a schedule, in order. -/
def ticks (schedule : List (ℕ × Reading)) : WorldRun Unit :=
  schedule.foldlM (fun _ t => tick t.1 t.2) ()

/-- The level of each port of a device and the level before its last change. -/
def levels (w : World) (j : ℕ) : Option (List (Option (ℤ × ℤ))) :=
  (w.devices j).map fun d =>
    (tableOf w.mem d).map fun port => port.map fun p => (p.value, p.previousValue)

/-! ### Loops that do not interfere -/

/-- The slot holds a connected device. -/
def Connected (w : World) (j : ℕ) : Prop := ∃ d, w.devices j = some d ∧ d.hasPokey = 1

/-- The tick is one of the device's own loop. -/
def isOwn (w : World) (j : ℕ) (t : ℕ × Reading) : Bool := w.threads[t.1]? == some (.device j)

/-- One loop for each connected device and no others, and under every schedule each device's ports
end up as its own ticks alone would leave them. -/
structure LoopsApart (w : World) : Prop where
  started : ∀ j, Connected w j → w.threads.count (.device j) = 1
  only : ∀ a ∈ w.threads, ∃ j, a = .device j ∧ Connected w j
  apart : ∀ schedule : List (ℕ × Reading), (∀ t ∈ schedule, t.1 < w.threads.length) →
    ∀ j, Connected w j →
      levels (final ((ticks schedule).run w)) j =
        levels (final ((ticks (schedule.filter (isOwn w j))).run w)) j

theorem loopsApart_of_no_threads {w : World} (hthreads : w.threads = [])
    (hnone : ∀ j, ¬ Connected w j) : LoopsApart w where
  started := fun j hj => absurd hj (hnone j)
  only := fun a ha => by simp [hthreads] at ha
  apart := fun _ _ j hj => absurd hj (hnone j)

/-- A thread on the local variable polls no device. -/
theorem not_loopsApart_of_localInt {w : World} (hthreads : ∀ a ∈ w.threads, a = .localInt) {j : ℕ}
    (hj : Connected w j) : ¬ LoopsApart w := by
  intro h
  have hcount : w.threads.count (.device j) = 0 := by
    refine List.count_eq_zero.2 fun hmem => ?_
    cases hthreads _ hmem
  have hone := h.started j hj
  omega

/-! ### Which devices get connected -/

variable {Setting : Type} [LibConfig Setting]

/-- The serial numbers loaded from the groups. -/
def loadedSerials (junk : ℕ → DeviceJunk) (gs : List Setting) : List String :=
  gs.mapIdx fun k g => (lookupString g "serialNumber").getD (junk k).serialNumber

theorem Registered.hasSerial_iff {junk : ℕ → DeviceJunk} {gs : List Setting} {m : ℕ} {w : World}
    (h : Registered junk gs m w) (j : ℕ) (s : String) :
    HasSerial w j s ↔ (loadedSerials junk gs)[j]? = some s := by
  rw [loadedSerials, List.getElem?_mapIdx]
  by_cases hj : j < gs.length
  · obtain ⟨d, hslot, hgrown⟩ := h.slot j gs[j] (List.getElem?_eq_getElem hj)
    have hserial : d.serialNumber =
        (lookupString gs[j] "serialNumber").getD (junk j).serialNumber := by
      rw [hgrown.device]
      rfl
    rw [List.getElem?_eq_getElem hj, Option.map_some, Option.some.injEq, ← hserial]
    constructor
    · rintro ⟨d', hd', hs⟩
      obtain rfl : d = d' := Option.some.inj (hslot.symm.trans hd')
      exact hs
    · exact fun hs => ⟨d, hslot, hs⟩
  · rw [List.getElem?_eq_none (by omega)]
    constructor
    · rintro ⟨d, hd, -⟩
      rw [h.empty j (by omega)] at hd
      cases hd
    · intro hnone
      cases hnone

/-- Nothing is connected when it is loaded. -/
theorem Registered.not_connected {junk : ℕ → DeviceJunk} {gs : List Setting} {m : ℕ} {w : World}
    (h : Registered junk gs m w) (j : ℕ) : ¬ Connected w j := by
  rintro ⟨d, hd, hhas⟩
  have hj : j < gs.length := by
    by_contra hj
    rw [h.empty j (by omega)] at hd
    cases hd
  obtain ⟨d', hslot, hgrown⟩ := h.slot j _ (List.getElem?_eq_getElem hj)
  obtain rfl : d = d' := Option.some.inj (hd.symm.trans hslot)
  rw [hgrown.device] at hhas
  cases hhas

/-- The device of the turn `i` connects, and its serial number is registered in a slot that the
search looks at. -/
def ConnectsRegistered (env : Env) (serials : List String) (i : ℕ) : Prop :=
  ∃ nd, env.network[i]? = some nd ∧ (env.connect i).isSome ∧
    snprintfD nd.serialNumber ∈ serials.take env.network.length

/-- As long as nothing was connected the registry is the loaded one. -/
inductive Progress (env : Env) (serials : List String) (w₀ : World) (i : ℕ) (w : World) : Prop
  | connected (j : ℕ) (hj : j < i) (hconn : Connected w j) (hown : ConnectsRegistered env serials j)
  | untouched (hdevices : w.devices = w₀.devices) (hthreads : w.threads = [])
      (hnumber : w.numberOfDevices = env.network.length)
      (hnone : ∀ j < i, ¬ ConnectsRegistered env serials j)

theorem Progress.turn {env : Env} {junk : ℕ → DeviceJunk} {gs : List Setting} {w₀ w w' : World}
    {i : ℕ} (h₀ : Registered junk gs env.network.length w₀) (hi : i < env.network.length)
    (h : Progress env (loadedSerials junk gs) w₀ i w)
    (hturn : Turn env i (snprintfD (env.network[i]).serialNumber) w w') :
    Progress env (loadedSerials junk gs) w₀ (i + 1) w' := by
  cases h with
  | connected j hj hconn hown =>
    refine .connected j (by omega) ?_ hown
    obtain ⟨d, hd, hhas⟩ := hconn
    exact ⟨d, (hturn.devices_of_ne (by omega)).trans hd, hhas⟩
  | untouched hdevices hthreads hnumber hnone =>
    -- where the search finds a slot of the loaded registry, its serial number is registered
    have hloaded : ∀ j s, HasSerial w j s ↔ (loadedSerials junk gs)[j]? = some s := fun j s => by
      rw [← h₀.hasSerial_iff, HasSerial, HasSerial, hdevices]
    have hnext : ¬ ConnectsRegistered env (loadedSerials junk gs) i →
        ∀ j < i + 1, ¬ ConnectsRegistered env (loadedSerials junk gs) j := by
      intro hnot j hj
      by_cases hji : j = i
      · rwa [hji]
      · exact hnone j (by omega)
    cases hturn with
    | missed hmiss hw' =>
      subst hw'
      refine .untouched hdevices hthreads hnumber (hnext ?_)
      rintro ⟨nd, hnd, -, hmem⟩
      obtain rfl : env.network[i] = nd := (List.getElem?_eq_some_iff.1 hnd).2
      obtain ⟨j, hj⟩ := List.mem_iff_getElem?.1 hmem
      rw [List.getElem?_take] at hj
      split_ifs at hj with hlt
      exact (hmiss j (by omega)).not_hasSerial ((hloaded j _).2 hj)
    | refused hhit hconnect hw' =>
      subst hw'
      refine .untouched hdevices hthreads hnumber (hnext ?_)
      rintro ⟨nd, -, hsome, -⟩
      rw [hconnect] at hsome
      cases hsome
    | up j hj d hslot hs hconnect pokey mem hw' =>
      subst hw'
      refine .connected i (by omega) ⟨_, Function.update_self .., rfl⟩ ?_
      refine ⟨_, List.getElem?_eq_getElem hi, hconnect, List.mem_iff_getElem?.2 ⟨j, ?_⟩⟩
      rw [List.getElem?_take, if_pos (by omega)]
      exact (hloaded j _).1 ⟨d, hslot, hs⟩

/-- **The polling loops do as they should exactly when no device gets connected.** -/
theorem loopsApart_iff (root : Setting) (junk : ℕ → DeviceJunk) (simJunk : SimulatorJunk)
    (env : Env) (w : World)
    (hmain : (main (some root) junk simJunk env).run World.init = .ok 0 w) :
    LoopsApart w ↔
      ∀ i, ¬ ConnectsRegistered env (loadedSerials junk (devicesOf root)) i := by
  obtain ⟨w₀, hreg, hloop⟩ := main_registered hmain
  have hreached := startupLoop_reached hreg le_rfl hloop
  have hprogress :
      Progress env (loadedSerials junk (devicesOf root)) w₀ env.network.length w :=
    startupLoop_invariant (Progress env (loadedSerials junk (devicesOf root)) w₀)
      (.untouched rfl hreg.threads hreg.numberOfDevices fun j hj => absurd hj (Nat.not_lt_zero j))
      (fun i hi w w' hI hturn => hI.turn hreg hi hturn) le_rfl hloop
  cases hprogress with
  | connected j hj hconn hown =>
    refine iff_of_false (not_loopsApart_of_localInt hreached.threads hconn) fun hnone => ?_
    exact hnone j hown
  | untouched hdevices hthreads hnumber hnone =>
    refine iff_of_true (loopsApart_of_no_threads hthreads ?_) fun i hconnects => ?_
    · rintro j ⟨d, hd, hhas⟩
      exact hreg.not_connected j ⟨d, hdevices ▸ hd, hhas⟩
    · obtain ⟨nd, hnd, -⟩ := id hconnects
      exact hnone i (List.getElem?_eq_some_iff.1 hnd).1 hconnects

/-- The device 17, the only one configured. -/
def oneDevice : Tree := Tree.file [Tree.device "17" [] []] [Tree.simulator 8091]

/-- It is on the network, and refuses. -/
def refusing : Env := .ofSerials [17] fun _ => none

theorem loopsApart_iff_refusing : LoopsApart (final (cleanRun oneDevice refusing)) := by
  have hmain := ok_of_value (by decide +kernel : value (cleanRun oneDevice refusing) = some 0)
  refine (loopsApart_iff _ _ _ _ _ hmain).2 ?_
  rintro i ⟨nd, -, hsome, -⟩
  cases hsome

/-- It is on the network, and accepts. -/
def accepting : Env := .ofSerials [17] fun _ => some (.cleared 55)

/-- No two connected devices have the same serial number. -/
def ConnectedDistinct (w : World) : Prop :=
  ∀ j k d e, w.devices j = some d → w.devices k = some e → d.hasPokey = 1 → e.hasPokey = 1 →
    d.serialNumber = e.serialNumber → j = k

/-- The thread of a single connected device polls something else. -/
theorem not_loopsApart_single : ¬ ∀ (root : Tree) (junk : ℕ → DeviceJunk)
    (simJunk : SimulatorJunk) (env : Env) (w : World),
    (main (some root) junk simJunk env).run World.init = .ok 0 w → ConnectedDistinct w →
      LoopsApart w := by
  intro h
  have hmain := ok_of_value (by decide +kernel : value (cleanRun oneDevice accepting) = some 0)
  obtain ⟨w₀, hreg, hloop⟩ := main_registered hmain
  have hreached := startupLoop_reached hreg le_rfl hloop
  have hactive : (final (cleanRun oneDevice accepting)).activeDevices = 1 := by decide +kernel
  -- the only filled slot is the first one
  have hfirst : ∀ j d, (final (cleanRun oneDevice accepting)).devices j = some d → j = 0 := by
    intro j d hd
    by_contra hj
    have hn : (devicesOf oneDevice).length = 1 := hreached.activeDevices.symm.trans hactive
    have hempty := hreached.empty j (by omega) (Nat.one_le_iff_ne_zero.2 hj)
    rw [hd] at hempty
    cases hempty
  have hhas : ((final (cleanRun oneDevice accepting)).devices 0).map Device.hasPokey = some 1 := by
    decide +kernel
  obtain ⟨d, hd, hconn⟩ := Option.map_eq_some_iff.1 hhas
  refine not_loopsApart_of_localInt hreached.threads ⟨d, hd, hconn⟩ (h _ _ _ _ _ hmain ?_)
  intro j k d e hj hk _ _ _
  rw [hfirst j d hj, hfirst k e hk]

end SimPokey
