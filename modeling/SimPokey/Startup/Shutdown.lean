import SimPokey.Startup.Polling

/-!
# The shutdown handler

`intHandler` goes through as many slots of `devices[]` as there are devices on the network, stops
the loop of each record and disconnects its image.  A `loop` field is set by the thread of a
device, and no thread is ever started on one, so the handler follows a pointer that nobody has set
as soon as it comes to a record (`intHandler_stops`, `cleanShutdown_iff`).
-/

namespace SimPokey

open FaultState LibConfig

/-- The world once the threads of a run have started, as far as they get. -/
def threadsStarted (w : World) : World := final ((runThreads w.threads).run w)

/-- Threads on the local variable set nothing in a device record. -/
theorem threadsStarted_of_localInt {w : World} (h : ∀ a ∈ w.threads, a = .localInt) :
    threadsStarted w = w := by
  unfold threadsStarted runThreads
  cases hthreads : w.threads with
  | nil => rfl
  | cons a threads =>
    have ha : a = .localInt := h a (hthreads ▸ List.mem_cons_self)
    rw [ha, List.foldlM_cons]
    rfl

/-- The call is one for a connected device. -/
def ForConnected (w : World) : ShutdownCall → Prop
  | .uvStop loop => ∃ j d, w.devices j = some d ∧ d.hasPokey = 1 ∧ d.loop = some loop
  | .disconnectDevice pokey =>
      ∃ j d, w.devices j = some d ∧ d.hasPokey = 1 ∧ d.pokey.map PoKeysDevice.addr = some pokey
  | .free _ => True
  | .freeSimConfig => True

/-- What a confirmed quit does: it dereferences only records with a loop and an image of this run,
stops and disconnects every connected device once and nothing else, and frees nothing twice. -/
structure CleanShutdown (w : World) : Prop where
  filled : ∀ i < w.numberOfDevices, ∃ d, w.devices i = some d ∧ d.pokey.isSome ∧ d.loop.isSome
  calls : ∃ w', (intHandler 'y').run w = .ok () w' ∧
    (∀ j d, w.devices j = some d → d.hasPokey = 1 → ∃ loop pokey, d.loop = some loop ∧
      d.pokey = some pokey ∧ w'.shutdown.count (.uvStop loop) = 1 ∧
      w'.shutdown.count (.disconnectDevice pokey.addr) = 1) ∧
    (∀ c ∈ w'.shutdown, ForConnected w c) ∧
    ∀ addr, w'.shutdown.count (.free addr) ≤ 1

/-- A confirmed quit that comes to a record whose loop nobody has set. -/
theorem intHandler_stops {w : World} {d : Device} (hd : w.devices 0 = some d)
    (hloop : d.loop = none) (hpos : 0 < w.numberOfDevices) {c : Char} (hc : c = 'y' ∨ c = 'Y') :
    (intHandler c).run w = .error .wildLoop w := by
  have hread : (deviceAt 0).run w = .ok d w := by simp only [deviceAt, EStateM.run, hd]
  have hturn : (shutdownDevice 0).run w = .error .wildLoop w := by
    rw [shutdownDevice, bind_of_ok hread, hloop]
    rfl
  obtain ⟨m, hm⟩ := Nat.exists_eq_succ_of_ne_zero hpos.ne'
  have hall : ((List.range w.numberOfDevices).foldlM (fun _ i => shutdownDevice i) ()).run w =
      .error .wildLoop w := by
    rw [hm, List.range_succ_eq_map, List.foldlM_cons]
    exact bind_of_error hturn
  show (if c = 'y' ∨ c = 'Y' then _ else _ : EStateM.Result Fault World Unit) = _
  rw [if_pos hc]
  exact bind_of_error hall

/-- A confirmed quit with nothing to go through. -/
theorem intHandler_of_no_devices {w : World} (hnumber : w.numberOfDevices = 0) {c : Char}
    (hc : c = 'y' ∨ c = 'Y') :
    (intHandler c).run w = .ok () { w with shutdown := w.shutdown ++ [.freeSimConfig] } := by
  have hnothing : ((List.range w.numberOfDevices).foldlM
      (fun _ i => shutdownDevice i) ()).run w = .ok () w := by rw [hnumber]; rfl
  show (if c = 'y' ∨ c = 'Y' then _ else _ : EStateM.Result Fault World Unit) = _
  rw [if_pos hc]
  exact bind_of_ok hnothing

/-- A handler with nothing to go through. -/
theorem cleanShutdown_of_no_devices {w : World} (hnumber : w.numberOfDevices = 0)
    (hshutdown : w.shutdown = []) (hnone : ∀ j, ¬ Connected w j) : CleanShutdown w where
  filled := fun i hi => by omega
  calls := by
    refine ⟨{ w with shutdown := [.freeSimConfig] }, ?_, ?_, ?_, ?_⟩
    · rw [intHandler_of_no_devices hnumber (Or.inl rfl), hshutdown]
      rfl
    · exact fun j d hd hhas => absurd ⟨d, hd, hhas⟩ (hnone j)
    · intro c hc
      rw [List.mem_singleton.1 hc]
      trivial
    · exact fun addr => List.count_le_length

variable {Setting : Type} [LibConfig Setting]

/-- **A confirmed quit shuts down cleanly exactly when there is no device on the network.** -/
theorem cleanShutdown_iff (root : Setting) (junk : ℕ → DeviceJunk) (simJunk : SimulatorJunk)
    (env : Env) (w : World)
    (hmain : (main (some root) junk simJunk env).run World.init = .ok 0 w) :
    CleanShutdown (threadsStarted w) ↔ env.network = [] := by
  obtain ⟨w₀, hreg, hloop⟩ := main_registered hmain
  have hreached := startupLoop_reached hreg le_rfl hloop
  rw [threadsStarted_of_localInt hreached.threads]
  constructor
  · intro hclean
    by_contra hne
    have hpos : 0 < w.numberOfDevices := by
      rw [hreached.numberOfDevices]
      exact List.length_pos_of_ne_nil hne
    obtain ⟨d, hd, -, hsome⟩ := hclean.filled 0 hpos
    rw [hreached.loop 0 d hd] at hsome
    cases hsome
  · intro hnil
    have hlen : env.network.length = 0 := by rw [hnil]; rfl
    rw [hlen] at hloop
    cases hloop
    refine cleanShutdown_of_no_devices (hreached.numberOfDevices.trans hlen) hreached.shutdown ?_
    exact hreg.not_connected

/-- Nobody on the network: only the simulator details are freed. -/
theorem cleanShutdown_iff_alone :
    CleanShutdown (threadsStarted (final (cleanRun oneDevice .empty))) := by
  have hmain := ok_of_value (by decide +kernel : value (cleanRun oneDevice .empty) = some 0)
  exact (cleanShutdown_iff _ _ _ _ _ hmain).2 rfl

/-- The single device that connected has no loop to be stopped. -/
theorem not_cleanShutdown_single : ¬ ∀ (root : Tree) (junk : ℕ → DeviceJunk)
    (simJunk : SimulatorJunk) (env : Env) (w : World), (devicesOf root).length ≤ maxDevices →
    env.network.length ≤ maxDevices →
    (main (some root) junk simJunk env).run World.init = .ok 0 w →
      CleanShutdown (threadsStarted w) := by
  intro h
  have hmain := ok_of_value (by decide +kernel : value (cleanRun oneDevice accepting) = some 0)
  obtain ⟨w₀, hreg, hloop⟩ := main_registered hmain
  have hreached := startupLoop_reached hreg le_rfl hloop
  have hclean := h _ _ _ _ _ (by decide) (by decide) hmain
  rw [threadsStarted_of_localInt hreached.threads] at hclean
  have hpos : 0 < (final (cleanRun oneDevice accepting)).numberOfDevices := by decide +kernel
  obtain ⟨d, hd, -, hsome⟩ := hclean.filled 0 hpos
  rw [hreached.loop 0 d hd] at hsome
  cases hsome

end SimPokey
