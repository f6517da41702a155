import SimPokey.Startup.Blocks

/-!
# What a startup sends

The images of different slots are different blocks, so a call says by its image which slot it is
made for: `World.sentTo` is what was sent to one slot.  A startup sends slot by slot, to the
connected ones only, the configured name if the device has another one and then PWM settings
(`main_sends`).
-/

namespace SimPokey

open FaultState LibConfig

variable {Setting : Type} [LibConfig Setting]

/-- What was sent to the device in the slot `k`: the calls that were handed its image. -/
def World.sentTo (w : World) (k : ℕ) : List LibCall :=
  ((w.devices k).bind Device.pokey).elim [] fun image =>
    w.mem.sent.filter fun c => c.image.addr = image.addr

/-- Of a log written in turns, what a turn wrote that alone writes entries with `p`. -/
theorem filter_flatMap_range {α : Type} {p : α → Bool} {f : ℕ → List α} {k i : ℕ} (hk : k < i)
    (hself : ∀ a ∈ f k, p a = true) (hother : ∀ k' < i, k' ≠ k → ∀ a ∈ f k', p a = false) :
    ((List.range i).flatMap f).filter p = f k := by
  induction i with
  | zero => omega
  | succ i ih =>
    have hearlier := fun k' hk' => hother k' (Nat.lt_succ_of_lt hk')
    rw [List.range_succ, List.flatMap_append, List.flatMap_singleton, List.filter_append]
    by_cases hki : k = i
    · -- the turns before the last write nothing with `p`
      subst hki
      have hnone : ((List.range k).flatMap f).filter p = [] := by
        rw [List.filter_flatMap, List.flatMap_eq_nil_iff]
        intro k' hk'
        have hlt := List.mem_range.1 hk'
        exact List.filter_eq_nil_iff.2 fun a ha => by
          rw [hearlier k' hlt hlt.ne a ha]
          exact Bool.false_ne_true
      rw [hnone, List.nil_append, List.filter_eq_self.2 hself]
    · rw [ih (by omega) hearlier, List.filter_eq_nil_iff.2, List.append_nil]
      intro a ha
      rw [hother i (Nat.lt_succ_self i) (Ne.symm hki) a ha]
      exact Bool.false_ne_true

/-! ### The name -/

theorem nameCalls_of_agrees {name : String} {pokey : PoKeysDevice}
    (h : Agrees name pokey.deviceName) (after : ℕ → Char) : nameCalls after name pokey = [] :=
  if_pos ((strncmpEq_iff_agrees ..).2 h)

theorem nameCalls_of_differs {name : String} {pokey : PoKeysDevice}
    (h : ¬ Agrees name pokey.deviceName) (after : ℕ → Char) :
    nameCalls after name pokey = [.deviceNameSet (pokey.renamed name after)] :=
  if_neg fun heq => h ((strncmpEq_iff_agrees ..).1 heq)

/-! ### Applying a table -/

/-- A record that is an input, an output or a PWM pin, if it is valid, sends its PWM settings or
nothing. -/
theorem sentByPort_eq (junk : PwmJunk) (pokey : PoKeysDevice) {p : DevicePort}
    (hknown : p.valid ≠ pinInvalid → p.type = PinType.digitalInput ∨
      p.type = PinType.digitalOutput ∨ p.type = PinType.pwmInput) :
    sentByPort junk pokey p =
      if isPwm p then [.pwmConfigurationSet (appliedPort junk pokey p)] else [] := by
  unfold sentByPort
  by_cases hvalid : p.valid = pinInvalid
  · have hpwm : isPwm p = false := by simp [isPwm, hvalid]
    rw [if_pos hvalid, hpwm]
    rfl
  · rcases hknown hvalid with htype | htype | htype <;>
      simp [hvalid, htype, isPwm, PinType.digitalInput, PinType.digitalOutput, PinType.pwmInput]

/-- A table whose valid records are inputs, outputs and PWM pins sends the PWM settings of each
valid PWM pin, and nothing else, with the image it is applied to. -/
theorem appliedTable_sends (junk : ℕ → PwmJunk) (ps : List DevicePort)
    (hknown : ∀ p ∈ ps, p.valid ≠ pinInvalid → p.type = PinType.digitalInput ∨
      p.type = PinType.digitalOutput ∨ p.type = PinType.pwmInput) (pokey : PoKeysDevice) :
    (∀ c ∈ (appliedTable junk ps (pokey, [])).2, ∃ image, c = .pwmConfigurationSet image ∧
        image.addr = pokey.addr) ∧
      (appliedTable junk ps (pokey, [])).2.length = ps.countP isPwm := by
  suffices hfold : ∀ (es : List (DevicePort × ℕ)), (∀ e ∈ es, e.1 ∈ ps) → ∀ pokey' calls,
      pokey'.addr = pokey.addr →
      (∀ c ∈ calls, ∃ image, c = LibCall.pwmConfigurationSet image ∧ image.addr = pokey.addr) →
      (∀ c ∈ (es.foldl (appliedTurn junk) (pokey', calls)).2,
        ∃ image, c = .pwmConfigurationSet image ∧ image.addr = pokey.addr) ∧
      (es.foldl (appliedTurn junk) (pokey', calls)).2.length =
        calls.length + (es.map Prod.fst).countP isPwm by
    obtain ⟨hcalls, hlen⟩ := hfold ps.zipIdx (fun e he => List.fst_mem_of_mem_zipIdx he) pokey []
      rfl (by simp)
    rw [List.zipIdx_map_fst, List.length_nil, Nat.zero_add] at hlen
    exact ⟨hcalls, hlen⟩
  intro es
  induction es with
  | nil => exact fun _ pokey' calls _ hcalls => ⟨hcalls, rfl⟩
  | cons e es ih =>
    intro hes pokey' calls haddr hcalls
    have hturn := sentByPort_eq (junk e.2) pokey' (hknown e.1 (hes e List.mem_cons_self))
    obtain ⟨hall, hlen⟩ := ih (fun e' he' => hes e' (List.mem_cons_of_mem e he'))
      (appliedPort (junk e.2) pokey' e.1) (calls ++ sentByPort (junk e.2) pokey' e.1) haddr (by
        intro c hc
        rcases List.mem_append.1 hc with hc | hc
        · exact hcalls c hc
        · rw [hturn] at hc
          split_ifs at hc with hpwm
          · exact ⟨_, List.mem_singleton.1 hc, haddr⟩
          · cases hc)
    refine ⟨hall, ?_⟩
    rw [List.foldl_cons, List.map_cons, List.countP_cons]
    show (es.foldl (appliedTurn junk)
      (_, calls ++ sentByPort (junk e.2) pokey' e.1)).2.length = _
    rw [hlen, hturn, List.length_append]
    split_ifs
    · rw [List.length_singleton]
      omega
    · rw [List.length_nil]
      omega

/-- There are six PWM pins, so a declared table has at most six valid PWM records, whatever is
marked. -/
theorem countP_isPwm_le (P W : List Setting) {f : DevicePort → DevicePort}
    (hf : ∀ p, (f p).type = p.type) : ((acceptedTable P W).map f).countP isPwm ≤ 6 := by
  let pwms := (acceptedTable P W).filter fun p => isPwm (f p)
  have hpins : pwms.map DevicePort.pin ⊆ [17, 18, 19, 20, 21, 22] := by
    intro pin hpin
    obtain ⟨p, hp, rfl⟩ := List.mem_map.1 hpin
    obtain ⟨hmem, hpwm⟩ := List.mem_filter.1 hp
    have htype := ((isPwm_iff (f p)).1 hpwm).2
    rw [hf p] at htype
    obtain ⟨-, hlo, hhi⟩ := of_mem_acceptedTable_pwm hmem htype
    simp only [List.mem_cons, List.not_mem_nil, or_false]
    omega
  have hnodup : (pwms.map DevicePort.pin).Nodup :=
    (nodup_acceptedTable_pin P W).sublist (List.filter_sublist.map _)
  calc ((acceptedTable P W).map f).countP isPwm
      = (pwms.map DevicePort.pin).length := by
        rw [List.countP_map, List.countP_eq_length_filter, List.length_map]
        rfl
    _ ≤ 6 := (hnodup.subperm hpins).length_le

/-- A mark is only made on a record of a type the check knows. -/
theorem Site.marked_type {env : Env} {name : ℕ → String} {r : Site} {i l : ℕ} {P W : List Setting}
    {p : DevicePort} (hp : p ∈ acceptedTable P W)
    (hvalid : (r.marked env name i l p).valid ≠ pinInvalid) :
    p.type = PinType.digitalInput ∨ p.type = PinType.digitalOutput ∨ p.type = PinType.pwmInput := by
  have hpassed : r.passed env name i l p = true := by
    by_contra hnot
    rw [Site.marked, if_neg hnot] at hvalid
    exact hvalid (of_mem_acceptedTable hp).1
  rcases List.mem_append.1 hp with hpin | hpwm
  · obtain ⟨hin | hout | huknown, -⟩ := of_mem_acceptedPins hpin
    · exact Or.inl hin
    · exact Or.inr (Or.inl hout)
    · -- the check has no case for an unknown type
      rw [Site.passed, List.any_eq_true] at hpassed
      obtain ⟨k, -, hpass⟩ := hpassed
      have hfails : ∀ lib image, passesCheck lib image p = false := by
        intro lib image
        simp [passesCheck, huknown, PinType.uknown, PinType.digitalInput, PinType.digitalOutput,
          PinType.encoder, PinType.fastEncoder, PinType.ufastEncoder, PinType.analogInput,
          PinType.pwmInput, PinType.counter]
      cases ht : r.slot k with
      | none => rw [ht] at hpass; cases hpass
      | some t =>
        rw [ht, Option.elim_some, Bool.and_eq_true] at hpass
        cases hfound : t.found env k with
        | none => rw [hfound] at hpass; cases hpass.2
        | some pokey => rw [hfound, Option.elim_some, hfails] at hpass; cases hpass.2
  · exact Or.inr (Or.inr (of_mem_acceptedPwm hpwm).2.1)

/-! ### One slot -/

section Reaches

variable {root : Setting} {junk : ℕ → DeviceJunk} {env : Env} {i : ℕ} {D : ℕ → Device}
  {ptr : ℕ → List ℕ} {w : World} {r : Site}

/-- What a slot that was brought up sent. -/
theorem Reaches.calls_eq (h : Reaches root junk env i D ptr w r) {k : ℕ} {t : Slot}
    (ht : r.slot k = some t) {pokey : PoKeysDevice} (hfound : t.found env k = some pokey) :
    ∃ pwms : List LibCall, r.calls env (configuredName junk (devicesOf root))
        (Site.loaded (devicesOf root)).ports k =
      nameCalls (env.afterName k) (configuredName junk (devicesOf root) t.source) pokey ++ pwms ∧
      pwms.length ≤ 6 ∧
      ∀ c ∈ pwms, ∃ image, c = .pwmConfigurationSet image ∧ image.addr = pokey.addr := by
  have hl := h.represents.source k t ht
  obtain ⟨hpwms, hlen⟩ := appliedTable_sends (env.junk k)
    ((groupTable (devicesOf root)[t.source]).map
      (r.marked env (configuredName junk (devicesOf root)) (k + 1) t.source)) (by
    intro p' hp' hvalid
    obtain ⟨p, hp, rfl⟩ := List.mem_map.1 hp'
    have htype := Site.marked_type hp hvalid
    rw [Site.marked_same]
    exact htype)
    (checkedImage env (configuredName junk (devicesOf root)) k t.source pokey)
  have haddr : (checkedImage env (configuredName junk (devicesOf root)) k t.source pokey).addr =
      pokey.addr := namedImage_addr ..
  rw [haddr] at hpwms
  refine ⟨_, ?_, ?_, hpwms⟩
  · rw [Site.calls, ht, Option.elim_some, hfound, Option.elim_some, turnCalls, loaded_ports hl]
  · rw [hlen]
    exact countP_isPwm_le _ _ fun p => by rw [Site.marked_same]

/-- The records of two slots are different blocks. -/
theorem Reaches.addr_ne (h : Reaches root junk env i D ptr w r) {k k' : ℕ} {t t' : Slot}
    (ht : r.slot k = some t) (ht' : r.slot k' = some t') (hne : k ≠ k') : t.addr ≠ t'.addr :=
  fun haddr => h.ledger.apart k k' t t' ht ht' hne t.addr_mem_blocks
    (haddr ▸ t'.addr_mem_blocks)

/-- A call is made with the image of the slot it is made for. -/
theorem Reaches.addr_of_mem_calls (h : Reaches root junk env i D ptr w r) {k : ℕ} {c : LibCall}
    (hc : c ∈ r.calls env (configuredName junk (devicesOf root))
      (Site.loaded (devicesOf root)).ports k) :
    ∃ t, r.slot k = some t ∧ t.image.isSome = true ∧ c.image.addr = t.addr + 1 := by
  cases ht : r.slot k with
  | none => rw [Site.calls, ht] at hc; cases hc
  | some t =>
    cases hfound : t.found env k with
    | none => rw [Site.calls, ht, Option.elim_some, hfound] at hc; cases hc
    | some pokey =>
      refine ⟨t, rfl, Slot.isSome_of_found hfound, ?_⟩
      have haddr : pokey.addr = t.addr + 1 := by
        rw [Slot.found, if_pos (Slot.isSome_of_found hfound), Option.map_eq_some_iff] at hfound
        obtain ⟨_, -, rfl⟩ := hfound
        rfl
      obtain ⟨pwms, hcalls, -, hpwms⟩ := h.calls_eq ht hfound
      rw [hcalls, List.mem_append] at hc
      rcases hc with hname | hpwm
      · unfold nameCalls at hname
        split_ifs at hname
        · cases hname
        · rw [List.mem_singleton.1 hname]
          exact haddr
      · obtain ⟨image, rfl, himage⟩ := hpwms c hpwm
        exact himage.trans haddr

/-- **What was sent to a slot is what its turn sent.** -/
theorem Reaches.sentTo_eq (h : Reaches root junk env i D ptr w r) (k : ℕ) :
    w.sentTo k = r.calls env (configuredName junk (devicesOf root))
      (Site.loaded (devicesOf root)).ports k := by
  unfold World.sentTo
  rw [h.represents.devices, h.represents.sent, h.explained.sent]
  cases ht : r.slot k with
  | none => rw [Site.calls, ht]; rfl
  | some t =>
    cases himage : t.image with
    | none =>
      have hpokey : (slotDevice D t).pokey = none := himage
      rw [Option.map_some, Option.bind_some, hpokey, Site.calls, ht, Option.elim_some,
        Slot.found_of_idle himage]
      rfl
    | some image =>
      have hpokey : (slotDevice D t).pokey = some image := himage
      rw [Option.map_some, Option.bind_some, hpokey, Option.elim_some, h.image_addr ht himage]
      refine filter_flatMap_range (h.explained.up k t image ht himage).1 (fun c hc => ?_)
        fun k' _ hne c hc => ?_
      · obtain ⟨t', ht', -, haddr⟩ := h.addr_of_mem_calls hc
        obtain rfl : t = t' := Option.some.inj (ht.symm.trans ht')
        exact decide_eq_true haddr
      · obtain ⟨t', ht', -, haddr⟩ := h.addr_of_mem_calls hc
        refine decide_eq_false fun hsame => ?_
        have hnext : t'.addr + 1 = t.addr + 1 := haddr.symm.trans hsame
        exact h.addr_ne ht' ht hne (Nat.succ.inj hnext)

/-- The log is what was sent to the slots, in their order. -/
theorem Reaches.sent_eq (h : Reaches root junk env i D ptr w r) :
    w.mem.sent = (List.range i).flatMap w.sentTo := by
  rw [h.represents.sent, h.explained.sent]
  exact List.flatMap_congr fun k _ => (h.sentTo_eq k).symm

/-- Nothing is sent to a slot that is not connected. -/
theorem Reaches.connected_of_sent (h : Reaches root junk env i D ptr w r) {k : ℕ}
    (hne : w.sentTo k ≠ []) : ∃ d, w.devices k = some d ∧ d.hasPokey = 1 := by
  rw [h.sentTo_eq] at hne
  obtain ⟨c, hc⟩ := List.exists_mem_of_ne_nil _ hne
  obtain ⟨t, ht, hup, -⟩ := h.addr_of_mem_calls hc
  exact ⟨slotDevice D t, by rw [h.represents.devices, ht]; rfl, if_pos hup⟩

/-- A connected slot: the device that was found, and the serial number it was asked for by. -/
theorem Reaches.found (h : Reaches root junk env i D ptr w r) {k : ℕ} {d : Device}
    (hd : w.devices k = some d) (hup : d.hasPokey = 1) : ∃ t nd found, r.slot k = some t ∧
      d = slotDevice D t ∧ t.source < (devicesOf root).length ∧ env.network[k]? = some nd ∧
      configuredSerial junk (devicesOf root) t.source = snprintfD nd.serialNumber ∧
      env.connect k = some found ∧ t.found env k = some { found with addr := t.addr + 1 } := by
  obtain ⟨t, ht, rfl, hl⟩ := h.slot hd
  cases himage : t.image with
  | none => simp [slotDevice, himage] at hup
  | some image =>
    obtain ⟨-, nd, pokey, hnd, hserial, hfound, -⟩ := h.explained.up k t image ht himage
    have hsome := hfound
    rw [Slot.found, himage, Option.isSome_some, if_pos rfl, Option.map_eq_some_iff] at hfound
    obtain ⟨found, hconnect, rfl⟩ := hfound
    exact ⟨t, nd, found, ht, rfl, hl, hnd, hserial, hconnect, hsome⟩

/-- Two slots never hold the same image. -/
theorem Reaches.slot_of_image (h : Reaches root junk env i D ptr w r) {k k' : ℕ} {d d' : Device}
    {image image' : PoKeysDevice} (hd : w.devices k = some d) (hd' : w.devices k' = some d')
    (himage : d.pokey = some image) (himage' : d'.pokey = some image')
    (haddr : image.addr = image'.addr) : k = k' := by
  obtain ⟨t, ht, rfl, -⟩ := h.slot hd
  obtain ⟨t', ht', rfl, -⟩ := h.slot hd'
  rw [h.image_addr ht himage, h.image_addr ht' himage'] at haddr
  by_contra hne
  exact h.addr_ne ht ht' hne (Nat.succ.inj haddr)

end Reaches

/-! ### The startup -/

/-- What is sent to a device that is configured as `d` and was found as `found`: the name if it has
another one, and then PWM settings at most six times. -/
structure SentTo (d : Device) (found : PoKeysDevice) (names pwms : List LibCall) : Prop where
  named : names = [] ↔ Agrees d.name found.deviceName
  name : ∀ c ∈ names, ∃ image, c = .deviceNameSet image ∧ Agrees d.name image.deviceName
  names_le : names.length ≤ 1
  pwm : ∀ c ∈ pwms, ∃ image, c = .pwmConfigurationSet image
  pwms_le : pwms.length ≤ 6

/-- **What a startup sends.**  All calls are made with the image of a connected slot, one slot
after the other, and no two slots have the same image.  Each connected slot is sent the configured
name, exactly when the device found has another one, then PWM settings at most six times; no pin
function and no output level is ever sent. -/
theorem main_sends (root : Setting) (junk : ℕ → DeviceJunk) (simJunk : SimulatorJunk) (env : Env)
    (hzero : ∀ j, (junk j).numberOfPins = 0) (i : ℕ) (w : World)
    (hreach : ReachesTurn root junk simJunk env i w) :
    w.mem.sent = (List.range i).flatMap w.sentTo ∧
      (∀ k, w.sentTo k ≠ [] → ∃ d, w.devices k = some d ∧ d.hasPokey = 1) ∧
      (∀ k k' d d' image image', w.devices k = some d → w.devices k' = some d' →
        d.pokey = some image → d'.pokey = some image' → image.addr = image'.addr → k = k') ∧
      ∀ k d, w.devices k = some d → d.hasPokey = 1 → ∃ found names pwms,
        env.connect k = some found ∧ w.sentTo k = names ++ pwms ∧ SentTo d found names pwms := by
  obtain ⟨D, ptr, r, h⟩ := hreach.reaches hzero
  refine ⟨h.sent_eq, fun k => h.connected_of_sent, fun k k' d d' image image' => h.slot_of_image,
    fun k d hd hup => ?_⟩
  obtain ⟨t, nd, found, ht, rfl, -, -, -, hconnect, hfound⟩ := h.found hd hup
  obtain ⟨pwms, hcalls, hlen, hpwms⟩ := h.calls_eq ht hfound
  have hname : configuredName junk (devicesOf root) t.source = (slotDevice D t).name := by
    rw [h.configured.name]
    rfl
  rw [hname] at hcalls
  have hpwm : ∀ c ∈ pwms, ∃ image, c = .pwmConfigurationSet image := fun c hc => by
    obtain ⟨image, rfl, -⟩ := hpwms c hc
    exact ⟨image, rfl⟩
  rw [← h.sentTo_eq] at hcalls
  by_cases hagrees : Agrees (slotDevice D t).name
      ({ found with addr := t.addr + 1 } : PoKeysDevice).deviceName
  · rw [nameCalls_of_agrees hagrees] at hcalls
    exact ⟨found, [], pwms, hconnect, hcalls, iff_of_true rfl hagrees, by simp, Nat.zero_le 1, hpwm,
      hlen⟩
  · rw [nameCalls_of_differs hagrees] at hcalls
    refine ⟨found, _, pwms, hconnect, hcalls, iff_of_false (List.cons_ne_nil _ _) hagrees,
      fun c hc => ?_, le_rfl, hpwm, hlen⟩
    exact ⟨_, List.mem_singleton.1 hc, agrees_renamed _ _ _⟩

/-- The lamp is told at most its name and six PWM settings. -/
theorem main_sends_lamp : (final (cleanRun lamp lampFound)).mem.sent.length ≤ 7 := by
  obtain ⟨d, hd, hup⟩ := lampFound_connected
  obtain ⟨hsent, -, -, hslots⟩ := main_sends lamp (fun _ => .cleared) ⟨none, none, 0, 0⟩
    lampFound (fun _ => rfl) _ _ (reachesTurn_of_main lampFound_returns)
  obtain ⟨found, names, pwms, -, hcalls, hrest⟩ := hslots 0 d hd hup
  have hone : (List.range lampFound.network.length).flatMap
      (final (cleanRun lamp lampFound)).sentTo = (final (cleanRun lamp lampFound)).sentTo 0 :=
    List.append_nil _
  rw [hsent, hone, hcalls, List.length_append]
  have hname := hrest.names_le
  have hpwm := hrest.pwms_le
  omega

end SimPokey
