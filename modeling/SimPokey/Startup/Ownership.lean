import SimPokey.Startup.Registry
import SimPokey.Startup.Steps

/-!
# Who holds which block

Before any call of the startup loop, some of the blocks are in slots of `devices[]`, and some only
in the locals of `main`.  No block is ever in two places (`Underway`): the slots share none, the
locals hold none of theirs, and every image that was opened is in one slot, or in flight.  And no
record has a loop (`Silent`), for that is set by a thread, and none is started on a record
(`startup_owns`).
-/

namespace SimPokey

open FaultState Stepwise

/-! ### The registry -/

/-- The registry of `n` configured devices, with `m` devices on the network: no two slots hold the
same block. -/
structure Held (n m : ℕ) (w : World) : Prop where
  numberOfDevices : w.numberOfDevices = m
  shutdown : w.shutdown = []
  filled : ∀ k < n, ∃ d, w.devices k = some d
  below : ∀ k d, w.devices k = some d → ∀ a ∈ d.blocks, a < w.brk
  apart : ∀ k k' d d', w.devices k = some d → w.devices k' = some d' → k ≠ k' →
    List.Disjoint d.blocks d'.blocks

/-- The images in the slots. -/
def connections (w : World) : Set ℕ :=
  {a | ∃ k d, w.devices k = some d ∧ d.pokey.map PoKeysDevice.addr = some a}

theorem Device.mem_blocks_of_pokey {d : Device} {a : ℕ}
    (h : d.pokey.map PoKeysDevice.addr = some a) : a ∈ d.blocks := by
  rw [Device.blocks, h]
  exact List.mem_cons_of_mem _ List.mem_cons_self

section Held

variable {n m : ℕ} {w w' : World}

/-- The slots are as they were. -/
theorem Held.frame (h : Held n m w) (hdevices : w'.devices = w.devices)
    (hnumber : w'.numberOfDevices = w.numberOfDevices) (hshutdown : w'.shutdown = w.shutdown)
    (hbrk : w.brk ≤ w'.brk) : Held n m w' where
  numberOfDevices := hnumber.trans h.numberOfDevices
  shutdown := hshutdown.trans h.shutdown
  filled := hdevices ▸ h.filled
  below := fun k d hd a ha => (h.below k d (hdevices ▸ hd) a ha).trans_le hbrk
  apart := hdevices ▸ h.apart

/-- A slot is given a record whose blocks are in no other slot. -/
theorem Held.update (h : Held n m w) {i : ℕ} {d : Device}
    (hdevices : w'.devices = Function.update w.devices i (some d))
    (hnumber : w'.numberOfDevices = w.numberOfDevices) (hshutdown : w'.shutdown = w.shutdown)
    (hbrk : w'.brk = w.brk) (hbelow : ∀ a ∈ d.blocks, a < w.brk)
    (hnew : ∀ k d', k ≠ i → w.devices k = some d' → List.Disjoint d'.blocks d.blocks) :
    Held n m w' where
  numberOfDevices := hnumber.trans h.numberOfDevices
  shutdown := hshutdown.trans h.shutdown
  filled := fun k hk => by
    by_cases hki : k = i
    · exact ⟨d, by rw [hdevices, hki, Function.update_self]⟩
    · rw [hdevices, Function.update_of_ne hki]
      exact h.filled k hk
  below := fun k d' hd' a ha => by
    rw [hbrk]
    by_cases hki : k = i
    · rw [hdevices, hki, Function.update_self, Option.some.injEq] at hd'
      exact hbelow a (hd' ▸ ha)
    · rw [hdevices, Function.update_of_ne hki] at hd'
      exact h.below k d' hd' a ha
  apart := fun k k' d₁ d₂ hd₁ hd₂ hne => by
    rw [hdevices] at hd₁ hd₂
    by_cases hki : k = i
    · rw [hki, Function.update_self, Option.some.injEq] at hd₁
      rw [Function.update_of_ne (hki ▸ hne.symm)] at hd₂
      exact hd₁ ▸ (hnew k' d₂ (hki ▸ hne.symm) hd₂).symm
    · rw [Function.update_of_ne hki] at hd₁
      by_cases hki' : k' = i
      · rw [hki', Function.update_self, Option.some.injEq] at hd₂
        exact hd₂ ▸ hnew k d₁ hki hd₁
      · rw [Function.update_of_ne hki'] at hd₂
        exact h.apart k k' d₁ d₂ hd₁ hd₂ hne

end Held

/-! ### In the middle of the startup -/

/-- The blocks the turn has allocated and not stored yet.  The image of a record that was just
copied is not among them: it is the one of the slot the copy was made from. -/
def Stage.blocks : Stage → List ℕ
  | .search addr _ => [addr]
  | .allocate device => [device.addr]
  | .connect device pokeyAddr => [device.addr, pokeyAddr]
  | .sync device | .check device | .store device => device.blocks
  | _ => []

/-- The image that is open and in no slot yet. -/
def Stage.inFlight : Stage → Option ℕ
  | .sync device | .check device | .store device => device.pokey.map PoKeysDevice.addr
  | _ => none

/-- The record that `device` points at. -/
def Stage.device : Stage → Option Device
  | .allocate device | .connect device _ | .sync device | .check device | .store device
  | .apply device => some device
  | _ => none

/-- The turn has set its slot. -/
def Stage.stored : Stage → Bool
  | .apply _ | .dump | .start => true
  | _ => false

/-- The slots whose turn has not set them. -/
def Position.Ahead (p : Position) (k : ℕ) : Prop :=
  p.turn < k ∨ k = p.turn ∧ p.stage.stored = false

/-- The startup of `n` configured devices at the position `p`: no slot is connected before its turn
sets it, the blocks of the locals are in no slot, and the images opened so far, each of them once,
are those of the slots and the one in flight. -/
structure Underway (env : Env) (n : ℕ) (p : Position) (w : World) : Prop where
  held : Held n env.network.length w
  inRange : p.InRange env
  idle : ∀ k d, w.devices k = some d → p.Ahead k → d.pokey = none
  locals : ∀ a ∈ p.stage.blocks, a < w.brk ∧ ∀ k d, w.devices k = some d → a ∉ d.blocks
  own : ∀ d, p.stage = .apply d → w.devices p.turn = some d
  opened : ∀ a, a ∈ p.opened ↔ p.stage.inFlight = some a ∨ a ∈ connections w
  once : p.opened.Nodup

theorem Position.ahead_of_nextTurn {p : Position} {k : ℕ} (h : p.nextTurn.Ahead k) : p.Ahead k := by
  have hk : p.turn + 1 ≤ k := h.elim Nat.le_of_lt fun heq => heq.1.ge
  exact Or.inl hk

/-- Records with the same blocks have the same image. -/
theorem pokey_addr_of_blocks {d d' : Device} (h : d'.blocks = d.blocks) :
    d'.pokey.map PoKeysDevice.addr = d.pokey.map PoKeysDevice.addr := by
  have htail : (d'.pokey.map PoKeysDevice.addr).toList = (d.pokey.map PoKeysDevice.addr).toList :=
    (List.cons.inj h).2
  simpa using congrArg List.head? htail

section Underway

variable {env : Env} {n : ℕ} {p p' : Position} {w w' : World}

/-- The images in the slots, one of which was set. -/
theorem mem_connections_update {i : ℕ} {d : Device}
    (hdevices : w'.devices = Function.update w.devices i (some d)) (a : ℕ) :
    a ∈ connections w' ↔ d.pokey.map PoKeysDevice.addr = some a ∨
      ∃ k d', k ≠ i ∧ w.devices k = some d' ∧ d'.pokey.map PoKeysDevice.addr = some a := by
  constructor
  · rintro ⟨k, d', hd', ha⟩
    rw [hdevices] at hd'
    by_cases hki : k = i
    · rw [hki, Function.update_self, Option.some.injEq] at hd'
      exact Or.inl (hd' ▸ ha)
    · rw [Function.update_of_ne hki] at hd'
      exact Or.inr ⟨k, d', hki, hd', ha⟩
  · rintro (ha | ⟨k, d', hki, hd', ha⟩)
    · exact ⟨i, d, by rw [hdevices, Function.update_self], ha⟩
    · exact ⟨k, d', by rw [hdevices, Function.update_of_ne hki, hd'], ha⟩

/-- A call that changes no slot. -/
theorem Underway.frame (h : Underway env n p w) (hcall : Call env p w p' w')
    (hdevices : w'.devices = w.devices) (hnumber : w'.numberOfDevices = w.numberOfDevices)
    (hshutdown : w'.shutdown = w.shutdown) (hbrk : w.brk ≤ w'.brk)
    (hahead : ∀ k, p'.Ahead k → p.Ahead k)
    (hblocks : ∀ a ∈ p'.stage.blocks, a ∈ p.stage.blocks ∨ w.brk ≤ a ∧ a < w'.brk)
    (hown : ∀ d, p'.stage ≠ .apply d)
    (hopened : ∀ a, a ∈ p'.opened ↔ p'.stage.inFlight = some a ∨ a ∈ connections w)
    (honce : p'.opened.Nodup) : Underway env n p' w' where
  held := h.held.frame hdevices hnumber hshutdown hbrk
  inRange := hcall.inRange h.inRange
  idle := fun k d hd hk => h.idle k d (hdevices ▸ hd) (hahead k hk)
  locals := fun a ha => by
    rw [hdevices]
    rcases hblocks a ha with hold | ⟨hle, hlt⟩
    · exact ⟨(h.locals a hold).1.trans_le hbrk, (h.locals a hold).2⟩
    · refine ⟨hlt, fun k d hd hmem => ?_⟩
      have hbelow := h.held.below k d hd a hmem
      omega
  own := fun d hd => absurd hd (hown d)
  opened := fun a => by rw [hopened, connections, connections, hdevices]
  once := honce

/-- The locals go out of scope with the turn. -/
theorem Underway.skip (h : Underway env n p w) (hcall : Call env p w p.nextTurn w')
    (hdevices : w'.devices = w.devices) (hnumber : w'.numberOfDevices = w.numberOfDevices)
    (hshutdown : w'.shutdown = w.shutdown) (hbrk : w.brk ≤ w'.brk)
    (hflight : p.stage.inFlight = none) : Underway env n p.nextTurn w' := by
  refine h.frame hcall hdevices hnumber hshutdown hbrk (fun _ => Position.ahead_of_nextTurn)
    (fun a ha => (nomatch ha)) (fun d hd => (nomatch hd)) (fun a => ?_) h.once
  rw [Position.nextTurn, h.opened, hflight]
  rfl

/-- The copy is edited where it is. -/
theorem Underway.edited (h : Underway env n p w) {stage : Stage}
    (hcall : Call env p w (p.goto stage) w') (hdevices : w'.devices = w.devices)
    (hnumber : w'.numberOfDevices = w.numberOfDevices) (hshutdown : w'.shutdown = w.shutdown)
    (hbrk : w.brk ≤ w'.brk) (hstored : stage.stored = p.stage.stored)
    (hblocks : stage.blocks = p.stage.blocks) (hflight : stage.inFlight = p.stage.inFlight)
    (hown : ∀ d, stage ≠ .apply d) : Underway env n (p.goto stage) w' := by
  refine h.frame hcall hdevices hnumber hshutdown hbrk (fun k hk => ?_)
    (fun a ha => Or.inl (hblocks ▸ ha)) hown (fun a => ?_) h.once
  · rw [Position.Ahead, ← hstored]
    exact hk
  · show a ∈ p.opened ↔ stage.inFlight = some a ∨ _
    rw [hflight]
    exact h.opened a

/-- The slot of the turn is set. -/
theorem Underway.placed (h : Underway env n p w) {stage : Stage} {d : Device}
    (hcall : Call env p w (p.goto stage) w')
    (hdevices : w'.devices = Function.update w.devices p.turn (some d))
    (hnumber : w'.numberOfDevices = w.numberOfDevices) (hshutdown : w'.shutdown = w.shutdown)
    (hbrk : w'.brk = w.brk) (hbelow : ∀ a ∈ d.blocks, a < w.brk)
    (hnew : ∀ k d', k ≠ p.turn → w.devices k = some d' → List.Disjoint d'.blocks d.blocks)
    (hstored : stage.stored = true) (hblocks : stage.blocks = []) (hflight : stage.inFlight = none)
    (hown : ∀ d, stage = .apply d → w'.devices p.turn = some d)
    (hopened : ∀ a, a ∈ p.opened ↔ d.pokey.map PoKeysDevice.addr = some a ∨
      ∃ k d', k ≠ p.turn ∧ w.devices k = some d' ∧ d'.pokey.map PoKeysDevice.addr = some a) :
    Underway env n (p.goto stage) w' where
  held := h.held.update hdevices hnumber hshutdown hbrk hbelow hnew
  inRange := hcall.inRange h.inRange
  idle := fun k d' hd' hk => by
    have hlt : p.turn < k := hk.resolve_right fun ⟨_, hnot⟩ => by
      rw [show (p.goto stage).stage.stored = true from hstored] at hnot
      cases hnot
    rw [hdevices, Function.update_of_ne hlt.ne'] at hd'
    exact h.idle k d' hd' (Or.inl hlt)
  locals := fun a ha => by
    rw [show (p.goto stage).stage.blocks = [] from hblocks] at ha
    cases ha
  own := hown
  opened := fun a => by
    rw [mem_connections_update hdevices]
    show a ∈ p.opened ↔ stage.inFlight = some a ∨ _
    rw [hflight, hopened]
    simp
  once := h.once

/-- Every call keeps the startup underway. -/
theorem Underway.step (h : Underway env n p w) (hcall : Call env p w p' w') :
    Underway env n p' w' := by
  have hlast := hcall
  obtain ⟨i, st, opened⟩ := p
  cases hcall with
  | finished => exact h
  | malloced nd stage =>
    obtain rfl : st = .test := stage
    refine h.frame hlast rfl rfl rfl (Nat.le_succ _) (fun _ hk => hk) (fun a ha => ?_)
      (fun d hd => (nomatch hd)) h.opened h.once
    rw [List.mem_singleton.1 ha]
    exact Or.inr ⟨le_rfl, Nat.lt_succ_self _⟩
  | missed addr nd stage =>
    obtain rfl : st = .search addr nd := stage
    exact h.skip hlast rfl rfl rfl le_rfl rfl
  | found addr nd stage j d hslot =>
    obtain rfl : st = .search addr nd := stage
    exact h.frame hlast rfl rfl rfl le_rfl (fun _ hk => hk) (fun a ha => Or.inl ha)
      (fun d hd => (nomatch hd)) h.opened h.once
  | allocated d stage =>
    obtain rfl : st = .allocate d := stage
    refine h.frame hlast rfl rfl rfl (Nat.le_succ _) (fun _ hk => hk) (fun a ha => ?_)
      (fun d hd => (nomatch hd)) h.opened h.once
    rcases List.mem_cons.1 ha with rfl | ha
    · exact Or.inl List.mem_cons_self
    · rw [List.mem_singleton.1 ha]
      exact Or.inr ⟨le_rfl, Nat.lt_succ_self _⟩
  | refused d addr stage =>
    obtain rfl : st = .connect d addr := stage
    exact h.skip hlast rfl rfl rfl le_rfl rfl
  | connected d addr stage pokey =>
    obtain rfl : st = .connect d addr := stage
    refine h.frame hlast rfl rfl rfl le_rfl (fun _ hk => hk) (fun a ha => Or.inl ha)
      (fun d hd => (nomatch hd)) (fun a => ?_) ?_
    · have hopened : a ∈ opened ↔ none = some a ∨ a ∈ connections w := h.opened a
      show a ∈ opened ++ [addr] ↔ some addr = some a ∨ a ∈ connections w
      rw [List.mem_append, List.mem_singleton, hopened, Option.some.injEq, eq_comm (a := addr)]
      simp [or_comm]
    · -- the new image is in no slot yet, and all that were opened before are
      have hfresh : addr ∉ opened := fun hmem => by
        obtain ⟨k, d', hd', ha⟩ :=
          ((h.opened addr).1 hmem).resolve_left fun hnone => (nomatch hnone)
        exact (h.locals addr (by simp [Stage.blocks])).2 k d' hd' (Device.mem_blocks_of_pokey ha)
      show (opened ++ [addr]).Nodup
      rw [← List.concat_eq_append]
      exact h.once.concat hfresh
  | named d d' stage hedited mem =>
    obtain rfl : st = .sync d := stage
    exact h.edited hlast rfl rfl rfl le_rfl rfl hedited.blocks
      (pokey_addr_of_blocks hedited.blocks) fun d hd => (nomatch hd)
  | checked d d' stage hedited mem =>
    obtain rfl : st = .check d := stage
    exact h.edited hlast rfl rfl rfl le_rfl rfl hedited.blocks
      (pokey_addr_of_blocks hedited.blocks) fun d hd => (nomatch hd)
  | stored d stage =>
    obtain rfl : st = .store d := stage
    refine h.placed hlast rfl rfl rfl rfl (fun a ha => (h.locals a ha).1)
      (fun k d' _ hd' a ha ha' => (h.locals a ha').2 k d' hd' ha) rfl rfl rfl ?_ fun a => ?_
    · rintro d' hd'
      cases hd'
      exact Function.update_self ..
    · -- the slot was idle
      have hidle : ∀ d', w.devices i = some d' → d'.pokey = none := fun d' hd' =>
        h.idle i d' hd' (Or.inr ⟨rfl, rfl⟩)
      refine (h.opened a).trans (or_congr_right ⟨?_, ?_⟩)
      · rintro ⟨k, d', hd', ha⟩
        refine ⟨k, d', ?_, hd', ha⟩
        rintro rfl
        rw [hidle d' hd'] at ha
        cases ha
      · rintro ⟨k, d', -, hd', ha⟩
        exact ⟨k, d', hd', ha⟩
  | applied d d' stage hedited mem =>
    obtain rfl : st = .apply d := stage
    have hown : w.devices i = some d := h.own d rfl
    refine h.placed hlast rfl rfl rfl rfl
      (fun a ha => h.held.below i d hown a (hedited.blocks ▸ ha))
      (fun k d₁ hk hd₁ => hedited.blocks ▸ h.held.apart k i d₁ d hd₁ hown hk) rfl rfl rfl
      (fun d hd => (nomatch hd)) fun a => ?_
    have hsame : w.devices = Function.update w.devices i (some d) := by
      rw [← hown, Function.update_eq_self]
    have hopened : a ∈ opened ↔ none = some a ∨ a ∈ connections w := h.opened a
    rw [pokey_addr_of_blocks hedited.blocks, ← mem_connections_update hsame, hopened]
    simp
  | dumped stage mem =>
    obtain rfl : st = .dump := stage
    exact h.frame hlast rfl rfl rfl le_rfl (fun _ hk => hk) (fun a ha => (nomatch ha))
      (fun d hd => (nomatch hd)) h.opened h.once
  | started stage threads =>
    obtain rfl : st = .start := stage
    exact h.skip hlast rfl rfl rfl le_rfl rfl

end Underway

/-! ### No loops -/

/-- No record has a loop, in a slot or out of it. -/
structure Silent (p : Position) (w : World) : Prop where
  slots : ∀ k d, w.devices k = some d → d.loop = none
  locals : ∀ d, p.stage.device = some d → d.loop = none

/-- A slot is set to a record without a loop. -/
theorem Silent.slots_update {p : Position} {w : World} (h : Silent p w) {i : ℕ} {d : Device}
    (hd : d.loop = none) :
    ∀ k d', Function.update w.devices i (some d) k = some d' → d'.loop = none := by
  intro k d' hd'
  by_cases hki : k = i
  · rw [hki, Function.update_self, Option.some.injEq] at hd'
    exact hd' ▸ hd
  · rw [Function.update_of_ne hki] at hd'
    exact h.slots k d' hd'

/-- No call of the startup gives a record a loop. -/
theorem Silent.step {env : Env} {p p' : Position} {w w' : World} (h : Silent p w)
    (hcall : Call env p w p' w') : Silent p' w' := by
  obtain ⟨i, st, opened⟩ := p
  have hlocal : ∀ d, st.device = some d → d.loop = none := h.locals
  cases hcall with
  | finished => exact h
  | malloced nd stage | missed addr nd stage | refused d addr stage | dumped stage mem
  | started stage threads => exact ⟨h.slots, fun d hd => (nomatch hd)⟩
  | found addr nd stage j d hslot =>
    exact ⟨h.slots, fun d' hd' => by cases hd'; exact h.slots j d hslot⟩
  | allocated d stage | connected d addr stage =>
    obtain rfl := stage
    exact ⟨h.slots, fun d' hd' => by cases hd'; exact hlocal d rfl⟩
  | named d d' stage hedited mem | checked d d' stage hedited mem =>
    obtain rfl := stage
    exact ⟨h.slots, fun d₁ hd₁ => by cases hd₁; exact hedited.loop.trans (hlocal d rfl)⟩
  | stored d stage =>
    obtain rfl := stage
    exact ⟨h.slots_update (hlocal d rfl), fun d' hd' => by cases hd'; exact hlocal d rfl⟩
  | applied d d' stage hedited mem =>
    obtain rfl := stage
    exact ⟨h.slots_update (hedited.loop.trans (hlocal d rfl)), fun d hd => (nomatch hd)⟩

/-! ### From the start -/

section Start

variable {Setting : Type} [LibConfig Setting] {root : Setting} {junk : ℕ → DeviceJunk}
  {simJunk : SimulatorJunk} {env : Env} {w : World}

theorem beforeLoop_brk (h : (beforeLoop (some root) junk simJunk env).run World.init = .ok () w) :
    w.brk = (devicesOf root).length := by
  obtain ⟨r, w₁, hload, h⟩ := bind_ok_iff.1 h
  obtain ⟨ret, w₂, hsim, hafter⟩ := bind_ok_iff.1 h
  obtain ⟨root, devices, w₀, hroot, hfound, -, hloads, rfl⟩ := loadConfiguredDevices_ok hload
  obtain ⟨simConfig, rfl⟩ := loadSimulatorDetails_frame hsim
  obtain rfl := afterSimulatorDetails_ok hafter
  cases hroot
  rw [devicesOf_eq hfound]
  show w₀.brk = _
  rw [hloads.world]
  exact Nat.zero_add _

/-- The record of the configured device `k` is the block `k`. -/
theorem Registered.blocks {gs : List Setting} {m : ℕ} (h : Registered junk gs m w) {k : ℕ}
    {d : Device} (hd : w.devices k = some d) :
    k < gs.length ∧ d.pokey = none ∧ d.blocks = [k] ∧ d.loop = none := by
  have hk : k < gs.length := by
    by_contra hk
    rw [h.empty k (by omega)] at hd
    cases hd
  obtain ⟨d', hslot, hgrown⟩ := h.slot k gs[k] (List.getElem?_eq_getElem hk)
  obtain rfl : d = d' := Option.some.inj (hd.symm.trans hslot)
  rw [hgrown.device]
  exact ⟨hk, rfl, rfl, rfl⟩

theorem underway_start
    (h : (beforeLoop (some root) junk simJunk env).run World.init = .ok () w) :
    Underway env (devicesOf root).length .start w ∧ Silent .start w := by
  have hreg := beforeLoop_registered h
  have hbrk := beforeLoop_brk h
  refine ⟨⟨⟨hreg.numberOfDevices, hreg.shutdown, fun k hk => ?_, fun k d hd a ha => ?_,
    fun k k' d d' hd hd' hne => ?_⟩, Position.inRange_start env,
    fun k d hd _ => (hreg.blocks hd).2.1, fun _ ha => (List.not_mem_nil ha).elim,
    fun _ hd => (nomatch hd), fun a => ?_, List.nodup_nil⟩,
    fun k d hd => (hreg.blocks hd).2.2.2, fun _ hd => (nomatch hd)⟩
  · obtain ⟨d, hslot, -⟩ := hreg.slot k (devicesOf root)[k] (List.getElem?_eq_getElem hk)
    exact ⟨d, hslot⟩
  · obtain ⟨hk, -, hblocks, -⟩ := hreg.blocks hd
    rw [hblocks, List.mem_singleton] at ha
    omega
  · rw [(hreg.blocks hd).2.2.1, (hreg.blocks hd').2.2.1]
    simpa using hne.symm
  · refine ⟨fun ha => (List.not_mem_nil ha).elim, ?_⟩
    rintro (ha | ⟨k, d, hd, ha⟩)
    · cases ha
    · rw [(hreg.blocks hd).2.1] at ha
      cases ha

end Start

/-- What holds before every call. -/
theorem steps_owned {env : Env} {n k : ℕ} {w₀ w : World} {p : Position}
    (h : Underway env n .start w₀ ∧ Silent .start w₀)
    (hsteps : (startupSteps env k).run w₀ = .ok p w) : Underway env n p w ∧ Silent p w :=
  steps_invariant (fun p w => Underway env n p w ∧ Silent p w)
    (fun _ _ _ _ hp hnext => ⟨hp.1.step (next_cases hnext), hp.2.step (next_cases hnext)⟩) h hsteps

/-- **Every block has one owner.**  Before whichever call of the startup: no two slots of
`devices[]` hold the same record or image, no slot holds a block the turn has yet to store, the
images opened so far, each of them once, are those in slots and the one in flight, and no record in
a slot or under way to one has a loop. -/
theorem startup_owns {Setting : Type} [LibConfig Setting] (root : Setting)
    (junk : ℕ → DeviceJunk) (simJunk : SimulatorJunk) (env : Env) (w₀ w : World)
    (hbefore : (beforeLoop (some root) junk simJunk env).run World.init = .ok () w₀) (n : ℕ)
    (p : Position) (hsteps : (startupSteps env n).run w₀ = .ok p w) :
    (∀ k k' d d', w.devices k = some d → w.devices k' = some d' → k ≠ k' →
      List.Disjoint d.blocks d'.blocks) ∧
    (∀ a ∈ p.stage.blocks, ∀ k d, w.devices k = some d → a ∉ d.blocks) ∧
    ((∀ a, a ∈ p.opened ↔ p.stage.inFlight = some a ∨ a ∈ connections w) ∧ p.opened.Nodup) ∧
    ∀ d, (∃ k, w.devices k = some d) ∨ p.stage.device = some d → d.loop = none := by
  obtain ⟨hunderway, hsilent⟩ := steps_owned (underway_start hbefore) hsteps
  refine ⟨hunderway.held.apart, fun a ha => (hunderway.locals a ha).2,
    ⟨hunderway.opened, hunderway.once⟩, ?_⟩
  rintro d (⟨k, hd⟩ | hd)
  · exact hsilent.slots k d hd
  · exact hsilent.locals d hd

/-- The two configured devices are loaded, and the loop is to begin. -/
def twoLoaded : EStateM.Result Fault World Unit :=
  (beforeLoop (some twoDevices) (fun _ => .cleared) ⟨none, none, 0, 0⟩ inOrder).run World.init

/-- The first device is connected, and its image is in no slot yet. -/
theorem startup_owns_inFlight : ∃ p w, (startupSteps inOrder 5).run (final twoLoaded) = .ok p w ∧
    p.opened = [3] ∧ p.stage.inFlight = some 3 ∧ 3 ∈ p.stage.blocks ∧
    ∀ k d, w.devices k = some d → 3 ∉ d.blocks := by
  have hbefore : twoLoaded = .ok () (final twoLoaded) :=
    ok_of_value (by decide +kernel : value twoLoaded = some ())
  obtain ⟨p, hvalue, hp⟩ := Option.map_eq_some_iff.1 (by decide +kernel :
    (value ((startupSteps inOrder 5).run (final twoLoaded))).map
      (fun p => (p.opened, p.stage.inFlight, p.stage.blocks)) = some ([3], some 3, [2, 3]))
  simp only [Prod.mk.injEq] at hp
  have hsteps := ok_of_value hvalue
  obtain ⟨-, hlocals, -⟩ := startup_owns twoDevices (fun _ => .cleared) ⟨none, none, 0, 0⟩ inOrder
    _ _ hbefore 5 p hsteps
  have hmem : 3 ∈ p.stage.blocks := by rw [hp.2.2]; decide
  exact ⟨p, _, hsteps, hp.1, hp.2.1, hmem, hlocals 3 hmem⟩

end SimPokey
