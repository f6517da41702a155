import SimPokey.Lib.Stepwise
import SimPokey.Startup.Site
import SimPokey.Startup.Turns

/-!
# The startup loop, call by call

A turn of the startup loop is a sequence of calls.  `Position` says which call comes next and what
the locals of `main` hold, and `Position.next` makes that call.  An interrupt may come between any
two of them.

Completing the loop from any position it comes to is the whole loop, and ten steps for each turn
complete it (`startup_stepwise`).
-/

namespace SimPokey

open FaultState Stepwise

/-- Where a turn is: before which call, with `device` and `device->pokey`. -/
inductive Stage
  /-- Before `i < numberOfDevices`. -/
  | test
  /-- Before `getDeviceBySerialNumber`, with the record that was allocated. -/
  | search (addr : ℕ) (networkDevice : NetworkDeviceSummary)
  /-- Before `device->pokey = malloc(…)`. -/
  | allocate (device : Device)
  /-- Before `connectToDevice`. -/
  | connect (device : Device) (pokeyAddr : ℕ)
  /-- Before `syncDeviceName`. -/
  | sync (device : Device)
  /-- Before `checkValidPinConfiguration`. -/
  | check (device : Device)
  /-- Before `devices[i] = device`. -/
  | store (device : Device)
  /-- Before `applyConfiguration`. -/
  | apply (device : Device)
  /-- Before `dumpDevices`. -/
  | dump
  /-- Before `pthread_create`. -/
  | start

/-- The number of calls up to the next test, if none ends the turn. -/
def Stage.left : Stage → ℕ
  | .test => 10
  | .search _ _ => 9
  | .allocate _ => 8
  | .connect _ _ => 7
  | .sync _ => 6
  | .check _ => 5
  | .store _ => 4
  | .apply _ => 3
  | .dump => 2
  | .start => 1

theorem Stage.left_pos (stage : Stage) : 0 < stage.left := by
  cases stage <;> exact Nat.succ_pos _

/-- The counter `i` of the loop, the stage of its turn, and the images that `connectToDevice` has
filled so far. -/
structure Position where
  turn : ℕ
  stage : Stage
  opened : List ℕ

/-- The first test of the loop. -/
def Position.start : Position := ⟨0, .test, []⟩

/-- At another stage of the same turn. -/
def Position.goto (p : Position) (stage : Stage) : Position := { p with stage := stage }

/-- After `i++`. -/
def Position.nextTurn (p : Position) : Position := { p with turn := p.turn + 1, stage := .test }

/-- The next call. -/
def Position.next (env : Env) (p : Position) : WorldRun Position :=
  match p.stage with
  | .test =>
      match env.network[p.turn]? with
      | none => pure p
      | some networkDevice => do
          let addr ← malloc
          pure (p.goto (.search addr networkDevice))
  | .search addr networkDevice => do
      match ← getDeviceBySerialNumber addr (snprintfD networkDevice.serialNumber) with
      | none => pure p.nextTurn
      | some device => pure (p.goto (.allocate device))
  | .allocate device => do
      let pokeyAddr ← malloc
      pure (p.goto (.connect device pokeyAddr))
  | .connect device pokeyAddr =>
      match env.connect p.turn with
      | none => pure p.nextTurn
      | some pokey =>
          let device :=
            { device with pokey := some { pokey with addr := pokeyAddr }, hasPokey := 1 }
          pure { p with stage := .sync device, opened := p.opened ++ [pokeyAddr] }
  | .sync device => do
      let named ← onMem (syncDeviceName (env.afterName p.turn) (env.nameSet p.turn) device)
      pure (p.goto (.check named.2))
  | .check device => do
      let checked ← onMem (checkValidPinConfiguration env.lib device)
      pure (p.goto (.store checked.2))
  | .store device => do
      storeDevice p.turn device
      pure (p.goto (.apply device))
  | .apply device => do
      let applied ← onMem (applyConfiguration (env.junk p.turn) device)
      change fun w => { w with devices := Function.update w.devices p.turn (some applied.2) }
      pure (p.goto .dump)
  | .dump => do
      dumpDevices
      pure (p.goto .start)
  | .start => do
      startThread (env.threadCreate p.turn) .localInt
      pure p.nextTurn

/-- The first `n` calls. -/
def startupSteps (env : Env) (n : ℕ) : WorldRun Position := steps (Position.next env) n .start

/-! ### What is left -/

section Rest

variable (env : Env)

/-- The turn `i` of the loop. -/
def startupTurn (i : ℕ) : WorldRun Unit :=
  match env.network[i]? with
  | none => pure ()
  | some networkDevice => startupStep env i networkDevice

/-- The turns `i, …, i + k - 1`. -/
def startupTurns (i : ℕ) : ℕ → WorldRun Unit
  | 0 => pure ()
  | k + 1 => do
      startupTurn env i
      startupTurns (i + 1) k

/-- What is left of the turn `i` at a stage. -/
def Stage.rest (i : ℕ) : Stage → WorldRun Unit
  | .test => startupTurn env i
  | .search addr networkDevice => do
      match ← getDeviceBySerialNumber addr (snprintfD networkDevice.serialNumber) with
      | none => pure ()
      | some device => Stage.rest i (.allocate device)
  | .allocate device => do
      let pokeyAddr ← malloc
      Stage.rest i (.connect device pokeyAddr)
  | .connect device pokeyAddr =>
      match env.connect i with
      | none => pure ()
      | some pokey => bringUp env i device { pokey with addr := pokeyAddr }
  | .sync device => do
      let named ← onMem (syncDeviceName (env.afterName i) (env.nameSet i) device)
      Stage.rest i (.check named.2)
  | .check device => do
      let checked ← onMem (checkValidPinConfiguration env.lib device)
      Stage.rest i (.store checked.2)
  | .store device => do
      storeDevice i device
      Stage.rest i (.apply device)
  | .apply device => do
      let applied ← onMem (applyConfiguration (env.junk i) device)
      change fun w => { w with devices := Function.update w.devices i (some applied.2) }
      Stage.rest i .dump
  | .dump => do
      dumpDevices
      Stage.rest i .start
  | .start => startThread (env.threadCreate i) .localInt
  termination_by stage => stage.left
  decreasing_by all_goals exact Nat.lt_add_one _

/-- What is left of the loop at a position. -/
def Position.rest (p : Position) : WorldRun Unit := do
  p.stage.rest env p.turn
  startupTurns env (p.turn + 1) (env.network.length - (p.turn + 1))

/-- The turns from `i` on. -/
theorem startupTurns_rest (i : ℕ) :
    startupTurns env i (env.network.length - i) =
      startupTurn env i >>= fun _ =>
        startupTurns env (i + 1) (env.network.length - (i + 1)) := by
  by_cases hi : i < env.network.length
  · rw [show env.network.length - i = env.network.length - (i + 1) + 1 by omega, startupTurns]
  · rw [startupTurn, List.getElem?_eq_none (by omega), pure_bind,
      show env.network.length - i = 0 by omega, show env.network.length - (i + 1) = 0 by omega]
    rfl

theorem nextTurn_rest (p : Position) :
    p.nextTurn.rest env = startupTurns env (p.turn + 1) (env.network.length - (p.turn + 1)) := by
  rw [startupTurns_rest, Position.rest]
  simp only [Position.nextTurn, Stage.rest]

theorem goto_rest (p : Position) (stage : Stage) : (p.goto stage).rest env =
    stage.rest env p.turn >>= fun _ =>
      startupTurns env (p.turn + 1) (env.network.length - (p.turn + 1)) := rfl

theorem bringUp_eq_rest (i : ℕ) (device : Device) (pokey : PoKeysDevice) :
    bringUp env i device pokey =
      Stage.rest env i (.sync { device with pokey := some pokey, hasPokey := 1 }) := by
  simp only [bringUp, Stage.rest]

theorem startupStep_eq_rest (i : ℕ) (nd : NetworkDeviceSummary) :
    startupStep env i nd = malloc >>= fun addr => Stage.rest env i (.search addr nd) := by
  rewrite [startupStep]
  refine congrArg (malloc >>= ·) (funext fun addr => ?_)
  rewrite [Stage.rest]
  refine congrArg (getDeviceBySerialNumber addr (snprintfD nd.serialNumber) >>= ·)
    (funext fun found => ?_)
  cases found with
  | none => rfl
  | some device =>
    dsimp only
    rewrite [Stage.rest]
    refine congrArg (malloc >>= ·) (funext fun pokeyAddr => ?_)
    rewrite [Stage.rest]
    cases env.connect i with
    | none => rfl
    | some pokey => rfl

/-- Every call leaves the rest of the loop. -/
theorem next_unfolds : Unfolds (Position.next env) (Position.rest env) := by
  intro p
  have hrest : p.rest env = (p.goto p.stage).rest env := rfl
  rw [hrest, goto_rest]
  unfold Position.next
  cases hstage : p.stage with
  | test =>
    cases hnd : env.network[p.turn]? with
    | none => simp only [pure_bind, Position.rest, hstage]
    | some nd =>
      simp only [goto_rest, Stage.rest, hnd, startupTurn, startupStep_eq_rest, bind_assoc,
        pure_bind]
  | search addr nd =>
    simp only [Stage.rest, bind_assoc]
    congr 1
    funext found
    cases found with
    | none => simp only [pure_bind, nextTurn_rest]
    | some device => simp only [pure_bind, goto_rest, Stage.rest]
  | connect device pokeyAddr =>
    simp only [Stage.rest]
    cases hconnect : env.connect p.turn with
    | none => simp only [pure_bind, nextTurn_rest]
    | some pokey =>
      rw [pure_bind]
      dsimp only
      rw [bringUp_eq_rest]
      exact goto_rest env { p with opened := p.opened ++ [pokeyAddr] } (.sync _)
  | start => simp only [Stage.rest, bind_assoc, pure_bind, nextTurn_rest]
  | _ => simp only [Stage.rest, goto_rest, bind_assoc, pure_bind]

/-- The loop is its turns. -/
theorem startupLoop_add (i k : ℕ) :
    startupLoop env (i + k) = startupLoop env i >>= fun _ => startupTurns env i k := by
  induction k generalizing i with
  | zero => exact bind_pure_unit.symm
  | succ k ih =>
    have hturn : startupLoop env (i + 1) = startupLoop env i >>= fun _ => startupTurn env i := rfl
    rw [show i + (k + 1) = i + 1 + k by omega, ih, hturn, bind_assoc]
    rfl

theorem start_rest : Position.start.rest env = startupLoop env env.network.length := by
  have hloop := startupLoop_add env 0 env.network.length
  have hrest := startupTurns_rest env 0
  rw [Nat.sub_zero] at hrest
  rw [Nat.zero_add, startupLoop, pure_bind, hrest] at hloop
  rw [hloop, Position.rest]
  simp only [Position.start, Stage.rest]

end Rest

/-! ### What the calls do -/

/-- The blocks of a record: its own, and that of its image. -/
def Device.blocks (d : Device) : List ℕ := d.addr :: (d.pokey.map PoKeysDevice.addr).toList

theorem pokeyOf_ok {d : Device} {pokey : PoKeysDevice} {m m' : Memory}
    (h : (pokeyOf d).run m = .ok pokey m') : d.pokey = some pokey ∧ m' = m := by
  unfold pokeyOf EStateM.run at h
  dsimp only at h
  split at h
  · cases h
  · cases h
    exact ⟨by assumption, rfl⟩

/-- The record was edited where it is: it has its blocks, and nobody gave it another loop. -/
structure Device.Edited (d d' : Device) : Prop where
  blocks : d'.blocks = d.blocks
  loop : d'.loop = d.loop

theorem edited_of_addr {d : Device} {pokey pokey' : PoKeysDevice} (hpokey : d.pokey = some pokey)
    (haddr : pokey'.addr = pokey.addr) : d.Edited { d with pokey := some pokey' } where
  blocks := by simp only [Device.blocks, hpokey, Option.map_some, haddr]
  loop := rfl

theorem syncDeviceName_edits {after : ℕ → Char} {ret : ℤ} {d : Device} {r : ℤ × Device}
    {m m' : Memory} (h : (syncDeviceName after ret d).run m = .ok r m') : d.Edited r.2 := by
  obtain ⟨pokey, m₁, hof, -⟩ := bind_ok_iff.1 h
  obtain ⟨hpokey, -⟩ := pokeyOf_ok hof
  obtain ⟨ret', hrun⟩ := syncDeviceName_run hpokey after ret m
  rw [hrun] at h
  cases h
  exact edited_of_addr hpokey (namedImage_addr ..)

theorem checkValidPinConfiguration_edits {lib : PoKeysLib} {d : Device} {r : ℤ × Device}
    {m m' : Memory} (h : (checkValidPinConfiguration lib d).run m = .ok r m') : d.Edited r.2 := by
  unfold checkValidPinConfiguration at h
  rw [run_ite] at h
  split_ifs at h with hhas
  · cases h
    exact ⟨rfl, rfl⟩
  · obtain ⟨pokey, m₁, hof, h⟩ := bind_ok_iff.1 h
    obtain ⟨_, m₂, -, h⟩ := bind_ok_iff.1 h
    cases h
    exact edited_of_addr (pokeyOf_ok hof).1 rfl

/-- The turns of the apply loop edit the image where it is. -/
theorem applySlot_addr {junk : ℕ → PwmJunk} {d : Device} {pokey pokey' : PoKeysDevice} {i : ℕ}
    {m m' : Memory} (h : (applySlot junk d pokey i).run m = .ok pokey' m') :
    pokey'.addr = pokey.addr := by
  obtain ⟨port, m₁, -, h⟩ := bind_ok_iff.1 h
  cases hdiv : dividesByZero port.2 with
  | true =>
    obtain ⟨_, hstop⟩ := applyPort_stops hdiv (junk i) pokey m₁
    rw [hstop] at h
    cases h
  | false =>
    obtain ⟨_, happly⟩ := applyPort_eq hdiv (junk i) pokey m₁
    rw [happly] at h
    cases h
    rfl

theorem applyConfiguration_edits {junk : ℕ → PwmJunk} {d : Device} {r : ℤ × Device}
    {m m' : Memory} (h : (applyConfiguration junk d).run m = .ok r m') : d.Edited r.2 := by
  obtain ⟨d', m₁, happly, h⟩ := bind_ok_iff.1 h
  cases h
  obtain ⟨pokey, m₂, hof, happly⟩ := bind_ok_iff.1 happly
  obtain ⟨pokey', m₃, hloop, happly⟩ := bind_ok_iff.1 happly
  cases happly
  refine edited_of_addr (pokeyOf_ok hof).1 ?_
  exact foldlM_partial (fun _ pokey' _ => pokey'.addr = pokey.addr) rfl
    (fun _ _ _ _ _ _ hI hturn => (applySlot_addr hturn).trans hI) hloop

/-- What a call did, from the position `p` in the world `w`. -/
inductive Call (env : Env) (p : Position) (w : World) : Position → World → Prop
  /-- The loop was over. -/
  | finished (stage : p.stage = .test) (hnd : env.network.length ≤ p.turn) : Call env p w p w
  | malloced (nd : NetworkDeviceSummary) (stage : p.stage = .test)
      (hnd : env.network[p.turn]? = some nd) :
      Call env p w (p.goto (.search w.brk nd)) { w with brk := w.brk + 1 }
  | missed (addr : ℕ) (nd : NetworkDeviceSummary) (stage : p.stage = .search addr nd) :
      Call env p w p.nextTurn w
  | found (addr : ℕ) (nd : NetworkDeviceSummary) (stage : p.stage = .search addr nd) (j : ℕ)
      (d : Device) (hslot : w.devices j = some d) :
      Call env p w (p.goto (.allocate { d with addr := addr })) w
  | allocated (d : Device) (stage : p.stage = .allocate d) :
      Call env p w (p.goto (.connect d w.brk)) { w with brk := w.brk + 1 }
  | refused (d : Device) (addr : ℕ) (stage : p.stage = .connect d addr) : Call env p w p.nextTurn w
  | connected (d : Device) (addr : ℕ) (stage : p.stage = .connect d addr) (pokey : PoKeysDevice) :
      Call env p w { p with
        stage := .sync { d with pokey := some { pokey with addr := addr }, hasPokey := 1 }
        opened := p.opened ++ [addr] } w
  | named (d d' : Device) (stage : p.stage = .sync d) (hedited : d.Edited d')
      (mem : Memory) : Call env p w (p.goto (.check d')) { w with mem := mem }
  | checked (d d' : Device) (stage : p.stage = .check d) (hedited : d.Edited d')
      (mem : Memory) : Call env p w (p.goto (.store d')) { w with mem := mem }
  | stored (d : Device) (stage : p.stage = .store d) :
      Call env p w (p.goto (.apply d)) { w.touch (.devices p.turn) with
        devices := Function.update w.devices p.turn (some d) }
  | applied (d d' : Device) (stage : p.stage = .apply d) (hedited : d.Edited d')
      (mem : Memory) : Call env p w (p.goto .dump) { w with
        mem := mem, devices := Function.update w.devices p.turn (some d') }
  | dumped (stage : p.stage = .dump) (mem : Memory) :
      Call env p w (p.goto .start) { w with mem := mem }
  | started (stage : p.stage = .start) (threads : List ThreadArg) :
      Call env p w p.nextTurn { w with threads := threads }

theorem next_cases {env : Env} {p p' : Position} {w w' : World}
    (h : (p.next env).run w = .ok p' w') : Call env p w p' w' := by
  unfold Position.next at h
  cases hstage : p.stage with
  | test =>
    rw [hstage] at h
    cases hnd : env.network[p.turn]? with
    | none =>
      rw [hnd] at h
      cases h
      exact .finished hstage (List.getElem?_eq_none_iff.1 hnd)
    | some nd =>
      rw [hnd] at h
      cases h
      exact .malloced nd hstage hnd
  | search addr nd =>
    rw [hstage] at h
    obtain ⟨found, w₁, hfound, h⟩ := bind_ok_iff.1 h
    rcases getDeviceBySerialNumber_cases addr (snprintfD nd.serialNumber) w with
      ⟨j, -, d, hslot, -, hrun⟩ | ⟨-, hrun⟩ | ⟨j, -, -, -, hrun⟩
    · rw [hrun] at hfound
      cases hfound
      cases h
      exact .found addr nd hstage j d hslot
    · rw [hrun] at hfound
      cases hfound
      cases h
      exact .missed addr nd hstage
    · rw [hrun] at hfound
      cases hfound
  | allocate d =>
    rw [hstage] at h
    cases h
    exact .allocated d hstage
  | connect d addr =>
    rw [hstage] at h
    cases hconnect : env.connect p.turn with
    | none =>
      simp only [hconnect] at h
      cases h
      exact .refused d addr hstage
    | some pokey =>
      simp only [hconnect] at h
      cases h
      exact .connected d addr hstage pokey
  | sync d =>
    rw [hstage] at h
    obtain ⟨named, w₁, hnamed, h⟩ := bind_ok_iff.1 h
    obtain ⟨mem, hsync, rfl⟩ := onMem_ok hnamed
    cases h
    exact .named d named.2 hstage (syncDeviceName_edits hsync) mem
  | check d =>
    rw [hstage] at h
    obtain ⟨checked, w₁, hchecked, h⟩ := bind_ok_iff.1 h
    obtain ⟨mem, hcheck, rfl⟩ := onMem_ok hchecked
    cases h
    exact .checked d checked.2 hstage (checkValidPinConfiguration_edits hcheck) mem
  | store d =>
    rw [hstage] at h
    cases h
    exact .stored d hstage
  | apply d =>
    rw [hstage] at h
    obtain ⟨applied, w₁, happlied, h⟩ := bind_ok_iff.1 h
    obtain ⟨mem, happly, rfl⟩ := onMem_ok happlied
    cases h
    exact .applied d applied.2 hstage (applyConfiguration_edits happly) mem
  | dump =>
    rw [hstage] at h
    obtain ⟨_, w₁, hdump, h⟩ := bind_ok_iff.1 h
    have hw₁ := dumpDevices_ok hdump
    cases h
    rw [hw₁]
    exact .dumped hstage w'.mem
  | start =>
    rw [hstage] at h
    obtain ⟨_, w₁, hthread, h⟩ := bind_ok_iff.1 h
    cases h
    unfold startThread EStateM.run at hthread
    dsimp only at hthread
    split_ifs at hthread <;> cases hthread
    · exact .started hstage _
    · exact .started hstage w.threads

/-! ### How many calls there are -/

section Count

variable {env : Env} {p p' : Position} {w w' : World}

/-- The calls that are left at most. -/
def Position.left (env : Env) (p : Position) : ℕ :=
  10 * (env.network.length - p.turn) + p.stage.left - 10

/-- The counter is one of a device on the network, except at the last test. -/
def Position.InRange (env : Env) (p : Position) : Prop :=
  p.turn < env.network.length ∨ p.turn = env.network.length ∧ p.stage = .test

theorem Position.InRange.lt (hp : p.InRange env) (hstage : p.stage ≠ .test) :
    p.turn < env.network.length := hp.resolve_right fun hlast => hstage hlast.2

theorem Position.inRange_start (env : Env) : Position.start.InRange env :=
  (Nat.zero_le env.network.length).lt_or_eq.imp_right fun heq => ⟨heq, rfl⟩

theorem Call.inRange (h : Call env p w p' w') (hp : p.InRange env) : p'.InRange env := by
  have hnext : p.stage ≠ .test → p.nextTurn.InRange env := fun hne =>
    (Nat.succ_le_of_lt (hp.lt hne)).lt_or_eq.imp_right fun heq => ⟨heq, rfl⟩
  cases h with
  | finished stage hnd => exact hp
  | malloced nd stage hnd => exact Or.inl (List.getElem?_eq_some_iff.1 hnd).1
  | missed addr nd stage => exact hnext (by simp [stage])
  | refused d addr stage => exact hnext (by simp [stage])
  | started stage threads => exact hnext (by simp [stage])
  | found addr nd stage | allocated d stage | connected d addr stage | named d d' stage
  | checked d d' stage | stored d stage | applied d d' stage | dumped stage =>
    exact Or.inl (hp.lt (by simp [stage]))

/-- Every call is one of those that were left. -/
theorem Call.left (h : Call env p w p' w') (hp : p.InRange env) :
    p'.left env ≤ p.left env - 1 := by
  have hpos := p.stage.left_pos
  have hnext : p.turn < env.network.length → p.nextTurn.left env ≤ p.left env - 1 := by
    intro hlt
    show 10 * (env.network.length - (p.turn + 1)) + 10 - 10 ≤
      10 * (env.network.length - p.turn) + p.stage.left - 10 - 1
    omega
  have hgoto : ∀ stage : Stage, stage.left = p.stage.left - 1 →
      (p.goto stage).left env ≤ p.left env - 1 := by
    intro stage hleft
    show 10 * (env.network.length - p.turn) + stage.left - 10 ≤
      10 * (env.network.length - p.turn) + p.stage.left - 10 - 1
    omega
  cases h with
  | finished stage hnd =>
    show 10 * (env.network.length - p.turn) + p.stage.left - 10 ≤ _
    rw [stage, Stage.left]
    omega
  | connected d addr stage pokey => exact hgoto (.sync _) (by rw [stage]; rfl)
  | missed addr nd stage => exact hnext (hp.lt (by simp [stage]))
  | refused d addr stage => exact hnext (hp.lt (by simp [stage]))
  | started stage threads => exact hnext (hp.lt (by simp [stage]))
  | malloced nd stage | found addr nd stage | allocated d stage | named d d' stage
  | checked d d' stage | stored d stage | applied d d' stage | dumped stage =>
    exact hgoto _ (by rw [stage]; rfl)

/-- Where no call is left, the loop is over. -/
theorem Position.rest_of_left (hp : p.InRange env) (h : p.left env = 0) : p.rest env = pure () := by
  have hpos := p.stage.left_pos
  have hover : p.stage = .test ∧ env.network.length ≤ p.turn := by
    unfold Position.left at h
    rcases hp with hlt | ⟨hlast, htest⟩
    · omega
    · exact ⟨htest, hlast.ge⟩
  rw [Position.rest, hover.1, Stage.rest, startupTurn, List.getElem?_eq_none hover.2, pure_bind,
    show env.network.length - (p.turn + 1) = 0 by omega]
  rfl

end Count

/-- **The loop, call by call.**  Completing it after any number of calls is the whole loop, and
after ten calls for each device on the network there is nothing to complete. -/
theorem startup_stepwise (env : Env) (n : ℕ) :
    (do let p ← startupSteps env n; p.rest env) = startupLoop env env.network.length ∧
      (do let _ ← startupSteps env (10 * env.network.length + n); pure ()) =
        startupLoop env env.network.length := by
  have hwhole : ∀ n, (do let p ← startupSteps env n; p.rest env) =
      startupLoop env env.network.length := fun n =>
    (steps_whole (next_unfolds env) n .start).trans (start_rest env)
  refine ⟨hwhole n, ?_⟩
  rw [← hwhole (10 * env.network.length + n)]
  funext w
  show (_ : WorldRun Unit).run w = (_ : WorldRun Unit).run w
  cases hrun : (startupSteps env (10 * env.network.length + n)).run w with
  | error e w' => rw [bind_of_error hrun, bind_of_error hrun]
  | ok p w' =>
    have hkeeps : ∀ (p : Position) (w : World) p' w', p.InRange env →
        (p.next env).run w = .ok p' w' → p'.InRange env ∧ p'.left env ≤ p.left env - 1 :=
      fun p w p' w' hp hnext =>
        ⟨(next_cases hnext).inRange hp, (next_cases hnext).left hp⟩
    have hstart := Position.inRange_start env
    have hin : p.InRange env := steps_invariant (fun p _ => p.InRange env)
      (fun p w p' w' hp hnext => (hkeeps p w p' w' hp hnext).1) hstart hrun
    have hleft := steps_finished (fun p _ => p.InRange env) (Position.left env) hkeeps hstart hrun
    have hnone : p.left env = 0 := by
      have hstart : Position.start.left env = 10 * env.network.length := by
        simp [Position.left, Position.start, Stage.left]
      omega
    rw [bind_of_ok hrun, bind_of_ok hrun, Position.rest_of_left hin hnone]

end SimPokey
