import SimPokey.Main

/-!
# The error paths of the startup

`initConfiguration` reports a file it could not read by `exitFailure`, which is the number
`configTrue` it reports success with; `main` drops the result of `loadSimulatorDetails`, which
tests its locals and not the lookups.  `startupErrorsHandled_iff` says which configuration files
are treated as they should be.
-/

namespace SimPokey

open FaultState LibConfig

variable {Setting : Type} [LibConfig Setting]

/-- The first entry of `configuration.simulator`. -/
def simulatorEntry (root : Setting) : Option Setting :=
  (elemsOf (lookup root ["configuration", "simulator"])).head?

/-- The simulator the first entry describes, if it has all three keys. -/
def declaredSimulator (root : Setting) : Option Simulator :=
  (simulatorEntry root).bind fun e =>
    (lookupString e "type").bind fun type =>
      (lookupString e "ipAddress").bind fun ipAddress =>
        (lookupInt e "port").map fun port => ⟨type, ipAddress, port⟩

/-- What a startup makes of a configuration file (`none`: a file that cannot be read), whatever
the uninitialised memory holds. -/
structure StartupErrorsHandled (file : Option Setting) : Prop where
  /-- An unreadable file is told from every readable one. -/
  told : file = none → ∀ root : Setting, (initConfiguration file).1 ≠
    (initConfiguration (some root)).1
  /-- Nothing is looked up in a destroyed configuration. -/
  unused : file = none →
    ∀ (junk : ℕ → DeviceJunk) (simJunk : SimulatorJunk) (env : Env) (w : World),
      (main file junk simJunk env).run World.init ≠ .error .destroyedConfig w
  /-- A complete first entry is stored. -/
  stored : ∀ root s, file = some root → declaredSimulator root = some s →
    ∀ (simJunk : SimulatorJunk) (w : World), ∃ ret,
      (loadSimulatorDetails (.loaded root) simJunk).run w = .ok ret { w with simConfig := some s }
  /-- Otherwise the load fails, stores nothing, -/
  failed : ∀ root, file = some root → declaredSimulator root = none →
    ∀ (simJunk : SimulatorJunk) (w : World),
      (loadSimulatorDetails (.loaded root) simJunk).run w = .ok exitFailure w
  /-- and nothing is read from `simConfig`. -/
  unread : ∀ root, file = some root → declaredSimulator root = none →
    ∀ (simJunk : SimulatorJunk) (env : Env) (w : World), .simConfig ∉ w.mem.accesses →
      .simConfig ∉ (final ((simulatorStartup (.loaded root) simJunk env).run w)).mem.accesses

/-- Whatever `loadSimulatorDetails` returned, `main` reads `simConfig` next. -/
theorem afterSimulatorDetails_reads (env : Env) (ret : ℤ) (w : World) :
    .simConfig ∈ (final ((afterSimulatorDetails env ret).run w)).mem.accesses := by
  have hmem : (final ((afterSimulatorDetails env ret).run w)).mem = w.mem.touch .simConfig := by
    unfold afterSimulatorDetails EStateM.run
    dsimp only
    split <;> rfl
  rw [hmem, Memory.touch_accesses]
  exact List.mem_append_right _ (List.mem_singleton_self _)

/-- With a complete first entry the three tests see the entry's own values. -/
theorem loadSimulatorDetails_of_complete {root : Setting} {s : Simulator}
    (h : declaredSimulator root = some s) (simJunk : SimulatorJunk) (w : World) :
    (loadSimulatorDetails (.loaded root) simJunk).run w =
      if s.port = 0 then .ok exitFailure w
      else .ok simJunk.ret { w with simConfig := some s } := by
  simp only [declaredSimulator, simulatorEntry, Option.bind_eq_some_iff,
    Option.map_eq_some_iff] at h
  obtain ⟨e, hentry, type, htype, ipAddress, hip, port, hport, rfl⟩ := h
  cases hfound : (lookup root ["configuration", "simulator"] : Option Setting) with
  | none => simp [hfound, elemsOf] at hentry
  | some simulator =>
    rw [hfound] at hentry
    obtain ⟨es, helems⟩ : ∃ es, elems simulator = e :: es := by
      cases hes : elems simulator with
      | nil => simp [elemsOf, hes] at hentry
      | cons e' es =>
        simp only [elemsOf, Option.elim_some, hes, List.head?_cons, Option.some.injEq] at hentry
        exact ⟨es, by rw [hentry]⟩
    rw [loadSimulatorDetails, bind_of_ok (configLookup_loaded ..), hfound]
    simp only [helems, htype, hip, hport, Option.some_or, Option.getD_some]
    rw [run_ite]
    rfl

/-- **A startup treats exactly these files as it should: the ones whose first simulator entry is
complete and has a port other than zero.** -/
theorem startupErrorsHandled_iff (file : Option Setting) :
    StartupErrorsHandled file ↔
      ∃ root s, file = some root ∧ declaredSimulator root = some s ∧ s.port ≠ 0 := by
  constructor
  · intro h
    cases file with
    | none =>
      exact absurd rfl (h.unused rfl (fun _ => .cleared) ⟨none, none, 0, 0⟩ .empty World.init)
    | some root =>
      cases hs : declaredSimulator root with
      | none =>
        -- the failed load is followed by the read all the same
        have hrun := h.failed root rfl hs ⟨none, none, 0, 0⟩ World.init
        have hunread := h.unread root rfl hs ⟨none, none, 0, 0⟩ .empty World.init
          (by simp [World.init, Memory.empty])
        rw [simulatorStartup, bind_of_ok hrun] at hunread
        exact absurd (afterSimulatorDetails_reads _ _ _) hunread
      | some s =>
        refine ⟨root, s, rfl, hs, fun hport => ?_⟩
        obtain ⟨ret, hrun⟩ := h.stored root s rfl hs ⟨none, none, 0, 0⟩ World.init
        rw [loadSimulatorDetails_of_complete hs, if_pos hport] at hrun
        cases hrun
  · rintro ⟨root, s, rfl, hs, hport⟩
    refine ⟨by simp, by simp, ?_, ?_, ?_⟩
    · rintro root' s' hroot hs' simJunk w
      cases hroot
      obtain rfl : s = s' := Option.some.inj (hs.symm.trans hs')
      exact ⟨simJunk.ret, by rw [loadSimulatorDetails_of_complete hs, if_neg hport]⟩
    · rintro root' hroot hnone
      cases hroot
      rw [hs] at hnone
      cases hnone
    · rintro root' hroot hnone
      cases hroot
      rw [hs] at hnone
      cases hnone

/-- The two result codes of `initConfiguration` are the same number. -/
theorem not_startupErrorsHandled_unreadable :
    ¬ ∀ file : Option Tree, StartupErrorsHandled file := by
  intro h
  exact absurd rfl ((h none).told rfl (Tree.file [] []))

end SimPokey
