import SimPokey.Startup.System

/-!
# The blocks of the startup loop

Every turn of the startup loop allocates a record, and an image once the search has found a device.
No two slots ever hold the same block (`Ledger`), and each turn loses a block for good
(`startup_loses`).
-/

namespace SimPokey

open FaultState

/-! ### The blocks of the slots -/

/-- The blocks a slot holds: its record, and its image when it is connected. -/
def Slot.blocks (t : Slot) : List ℕ := if t.image.isSome then [t.addr, t.addr + 1] else [t.addr]

theorem Slot.addr_mem_blocks (t : Slot) : t.addr ∈ t.blocks := by
  unfold Slot.blocks
  split_ifs <;> exact List.mem_cons_self

/-- The slot is connected. -/
def Site.isConnected (r : Site) (k : ℕ) : Bool := (r.slot k).elim false fun t => t.image.isSome

/-- The blocks after `i` turns: those of the slots are all different, and at least one was
allocated for each configured device, each turn and each connected slot. -/
structure Ledger (n i : ℕ) (r : Site) : Prop where
  below : ∀ k t, r.slot k = some t → ∀ a ∈ t.blocks, a < r.brk
  apart : ∀ k k' t t', r.slot k = some t → r.slot k' = some t' → k ≠ k' →
    List.Disjoint t.blocks t'.blocks
  count : n + i + (List.range i).countP r.isConnected ≤ r.brk

section Ledger

variable {env : Env} {serial name : ℕ → String} {tables : ℕ → List DevicePort} {n i : ℕ}
  {r r' : Site}

/-- Every turn keeps the ledger. -/
theorem Ledger.turn (h : Ledger n i r) (hexplained : Explained env name serial tables n i r)
    {s : String} (hturn : SiteTurn env serial name i s r r') : Ledger n (i + 1) r' := by
  -- the slot of the turn is not connected before it
  have hidle : r.isConnected i = false := by
    unfold Site.isConnected
    cases ht : r.slot i with
    | none => rfl
    | some t =>
      cases himage : t.image with
      | none => rw [Option.elim_some, himage]; rfl
      | some image =>
        have hlt := (hexplained.up i t image ht himage).1
        omega
  cases hturn with
  | skipped k hk hr' =>
    subst hr'
    refine ⟨fun j t ht a ha => ?_, h.apart, ?_⟩
    · have hlt := h.below j t ht a ha
      show a < r.brk + k
      omega
    · have hcount := h.count
      show n + (i + 1) + (List.range (i + 1)).countP r.isConnected ≤ r.brk + k
      rw [List.range_succ, List.countP_append, List.countP_singleton, hidle]
      simp only [Bool.false_eq_true, if_false]
      omega
  | up j t pokey _ _ _ hrun =>
    obtain ⟨ports, -, -, hr'⟩ := siteBringUp_ok hrun
    have hbrk : r'.brk = r.brk + 2 := by rw [hr']
    obtain ⟨t₀, hself, hnew⟩ : ∃ t₀, r'.slot i = some t₀ ∧ t₀.blocks = [r.brk, r.brk + 1] :=
      ⟨_, by rw [hr']; exact Function.update_self .., rfl⟩
    have hother : ∀ k, k ≠ i → r'.slot k = r.slot k := by
      intro k hk
      rw [hr']
      exact Function.update_of_ne hk ..
    -- the new blocks lie beyond those of every other slot
    have hbeyond : ∀ k t, k ≠ i → r'.slot k = some t → List.Disjoint t.blocks t₀.blocks := by
      intro k t hk ht a ha ha₀
      rw [hother k hk] at ht
      rw [hnew, List.mem_cons, List.mem_singleton] at ha₀
      have hlt := h.below k t ht a ha
      omega
    refine ⟨fun k t ht a ha => ?_, fun k k' t t' ht ht' hne => ?_, ?_⟩
    · by_cases hki : k = i
      · subst hki
        obtain rfl : t₀ = t := Option.some.inj (hself.symm.trans ht)
        rw [hnew, List.mem_cons, List.mem_singleton] at ha
        omega
      · rw [hother k hki] at ht
        have hlt := h.below k t ht a ha
        omega
    · by_cases hki : k = i
      · subst hki
        obtain rfl : t₀ = t := Option.some.inj (hself.symm.trans ht)
        exact (hbeyond k' t' hne.symm ht').symm
      · by_cases hki' : k' = i
        · subst hki'
          obtain rfl : t₀ = t' := Option.some.inj (hself.symm.trans ht')
          exact hbeyond k t hki ht
        · rw [hother k hki] at ht
          rw [hother k' hki'] at ht'
          exact h.apart k k' t t' ht ht' hne
    · have hconnected : r'.isConnected i = true := by rw [hr', Site.isConnected]; simp
      have hbefore :
          (List.range i).countP r'.isConnected = (List.range i).countP r.isConnected := by
        refine List.countP_congr fun k hk => ?_
        rw [Site.isConnected, Site.isConnected, hother k (List.mem_range.1 hk).ne]
      have hcount := h.count
      rw [List.range_succ, List.countP_append, List.countP_singleton, hbefore, hconnected, hbrk,
        if_pos rfl]
      omega

end Ledger

/-- The configured site has one block for each device. -/
theorem ledger_loaded {Setting : Type} [LibConfig Setting] (gs : List Setting) :
    Ledger gs.length 0 (.loaded gs) where
  below := fun k t ht a ha => by
    simp only [Site.loaded] at ht
    split_ifs at ht with hk
    cases ht
    rw [Slot.blocks, if_neg (by simp), List.mem_singleton] at ha
    exact ha ▸ hk
  apart := fun k k' t t' ht ht' hne => by
    simp only [Site.loaded] at ht ht'
    split_ifs at ht ht'
    cases ht
    cases ht'
    simpa [Slot.blocks] using hne.symm
  count := le_rfl

/-- Every state the loop reaches has its ledger. -/
theorem siteLoop_ledger {env : Env} {serial name : ℕ → String} {Setting : Type}
    [LibConfig Setting] {gs : List Setting} {i : ℕ} {r : Site} (hi : i ≤ env.network.length)
    (h : (siteLoop env serial name i).run (.loaded gs) = .ok () r) : Ledger gs.length i r := by
  have hboth := siteLoop_invariant (fun i r =>
    Explained env name serial (Site.loaded gs).ports gs.length i r ∧ Ledger gs.length i r)
    ⟨explained_loaded env serial name gs, ledger_loaded gs⟩
    (fun i hi r r' hI hturn =>
      ⟨hI.1.turn (List.getElem?_eq_getElem hi) hturn, hI.2.turn hI.1 hturn⟩) hi h
  exact hboth.2

/-! ### Lost blocks -/

/-- The blocks `devices[]` leads to: its records, and their images. -/
def heldBlocks (w : World) : Set ℕ :=
  {a | ∃ k d, w.devices k = some d ∧
    (d.addr = a ∨ ∃ image, d.pokey = some image ∧ image.addr = a)}

@[simp] theorem appliedImage_addr (env : Env) (name : ℕ → String) (i l : ℕ) (pokey : PoKeysDevice)
    (ports : List DevicePort) : (appliedImage env name i l pokey ports).addr = pokey.addr := by
  rw [appliedImage, appliedTable_image]
  exact namedImage_addr ..

section Reached

variable {Setting : Type} [LibConfig Setting] {root : Setting} {junk : ℕ → DeviceJunk} {env : Env}
  {i : ℕ} {D : ℕ → Device} {ptr : ℕ → List ℕ} {w : World} {r : Site}

theorem Reaches.ledger (h : Reaches root junk env i D ptr w r) :
    Ledger (devicesOf root).length i r := siteLoop_ledger h.le h.run

/-- The image of a slot is the block after its record. -/
theorem Reaches.image_addr (h : Reaches root junk env i D ptr w r) {k : ℕ} {t : Slot}
    (ht : r.slot k = some t) {image : PoKeysDevice} (himage : t.image = some image) :
    image.addr = t.addr + 1 := by
  obtain ⟨-, nd, pokey, -, -, hfound, hvalue⟩ := h.explained.up k t image ht himage
  rw [hvalue, appliedImage_addr]
  rw [Slot.found, himage, Option.isSome_some, if_pos rfl, Option.map_eq_some_iff] at hfound
  obtain ⟨_, -, rfl⟩ := hfound
  rfl

/-- The blocks of a record are those of its slot. -/
theorem Reaches.mem_heldBlocks (h : Reaches root junk env i D ptr w r) {a : ℕ} :
    a ∈ heldBlocks w ↔ ∃ k t, r.slot k = some t ∧ a ∈ t.blocks := by
  constructor
  · rintro ⟨k, d, hd, hblock⟩
    obtain ⟨t, ht, rfl, -⟩ := h.slot hd
    refine ⟨k, t, ht, ?_⟩
    rcases hblock with rfl | ⟨image, himage, rfl⟩
    · exact t.addr_mem_blocks
    · have himage' : t.image = some image := himage
      rw [h.image_addr ht himage', Slot.blocks, himage', Option.isSome_some, if_pos rfl]
      simp
  · rintro ⟨k, t, ht, hblock⟩
    refine ⟨k, slotDevice D t, by rw [h.represents.devices, ht]; rfl, ?_⟩
    unfold Slot.blocks at hblock
    cases himage : t.image with
    | none =>
      rw [himage, Option.isSome_none, if_neg Bool.false_ne_true, List.mem_singleton] at hblock
      exact Or.inl hblock.symm
    | some image =>
      rw [himage, Option.isSome_some, if_pos rfl, List.mem_cons, List.mem_singleton] at hblock
      rcases hblock with rfl | rfl
      · exact Or.inl rfl
      · exact Or.inr ⟨image, himage, h.image_addr ht himage⟩

/-- With no more devices on the network than configured, only the configured slots are filled. -/
theorem Reaches.slot_lt (h : Reaches root junk env i D ptr w r)
    (hm : env.network.length ≤ (devicesOf root).length) {k : ℕ} {t : Slot}
    (ht : r.slot k = some t) : k < (devicesOf root).length := by
  have hle := h.le
  cases himage : t.image with
  | none => exact (h.explained.idle k t ht himage).1
  | some image =>
    have hlt := (h.explained.up k t image ht himage).1
    omega

end Reached

/-- The blocks of slots that are all filled. -/
theorem length_flatMap_blocks (r : Site) (ks : List ℕ) (h : ∀ k ∈ ks, ∃ t, r.slot k = some t) :
    (ks.flatMap fun k => (r.slot k).elim [] Slot.blocks).length =
      ks.length + ks.countP r.isConnected := by
  induction ks with
  | nil => rfl
  | cons k ks ih =>
    obtain ⟨t, ht⟩ := h k List.mem_cons_self
    rw [List.flatMap_cons, List.length_append, ih fun k' hk' => h k' (List.mem_cons_of_mem k hk'),
      List.length_cons, List.countP_cons, Site.isConnected, ht]
    cases himage : t.image.isSome with
    | false => simp [Slot.blocks, himage]; omega
    | true => simp [Slot.blocks, himage]; omega

/-- **Every turn loses a block.**  With no more devices on the network than configured, after `i`
turns at least `i` of the blocks allocated are held by nothing `devices[]` leads to. -/
theorem startup_loses {Setting : Type} [LibConfig Setting] (root : Setting)
    (junk : ℕ → DeviceJunk) (simJunk : SimulatorJunk) (env : Env)
    (hzero : ∀ j, (junk j).numberOfPins = 0)
    (hm : env.network.length ≤ (devicesOf root).length) (i : ℕ) (w : World)
    (hreach : ReachesTurn root junk simJunk env i w) :
    ∃ lost : Finset ℕ, i ≤ lost.card ∧ ∀ a ∈ lost, a < w.brk ∧ a ∉ heldBlocks w := by
  obtain ⟨D, ptr, r, h⟩ := hreach.reaches hzero
  let n := (devicesOf root).length
  let held := (List.range n).flatMap fun k => (r.slot k).elim [] Slot.blocks
  have hlen : held.length = n + (List.range n).countP r.isConnected := by
    have hlength := length_flatMap_blocks r (List.range n) fun k hk =>
      h.explained.filled k (List.mem_range.1 hk)
    rwa [List.length_range] at hlength
  -- only slots of turns already done are connected
  have hconnected : (List.range n).countP r.isConnected ≤ (List.range i).countP r.isConnected := by
    rw [List.countP_eq_length_filter, List.countP_eq_length_filter]
    refine (List.nodup_range.filter _ |>.subperm fun k hk => ?_).length_le
    obtain ⟨-, hk⟩ := List.mem_filter.1 hk
    refine List.mem_filter.2 ⟨List.mem_range.2 ?_, hk⟩
    cases ht : r.slot k with
    | none => rw [Site.isConnected, ht] at hk; cases hk
    | some t =>
      rw [Site.isConnected, ht, Option.elim_some] at hk
      obtain ⟨image, himage⟩ := Option.isSome_iff_exists.1 hk
      exact (h.explained.up k t image ht himage).1
  refine ⟨Finset.range r.brk \ held.toFinset, ?_, ?_⟩
  · have hcount := h.ledger.count
    have hcard := Finset.le_card_sdiff held.toFinset (Finset.range r.brk)
    have hheld := held.toFinset_card_le
    rw [Finset.card_range] at hcard
    omega
  · intro a ha
    rw [Finset.mem_sdiff, Finset.mem_range, List.mem_toFinset] at ha
    refine ⟨h.represents.brk ▸ ha.1, fun hmem => ha.2 ?_⟩
    obtain ⟨k, t, ht, hblock⟩ := h.mem_heldBlocks.1 hmem
    refine List.mem_flatMap.2 ⟨k, List.mem_range.2 (h.slot_lt hm ht), ?_⟩
    rw [ht]
    exact hblock

theorem startup_loses_inOrder : ∃ lost : Finset ℕ, 2 ≤ lost.card ∧ ∀ a ∈ lost,
    a < (final (cleanRun twoDevices inOrder)).brk ∧
      a ∉ heldBlocks (final (cleanRun twoDevices inOrder)) := by
  have hmain := ok_of_value (by decide +kernel : value (cleanRun twoDevices inOrder) = some 0)
  exact startup_loses twoDevices (fun _ => .cleared) ⟨none, none, 0, 0⟩ inOrder (fun _ => rfl)
    (by decide) 2 _ (reachesTurn_of_main hmain)

end SimPokey
