import SimPokey.Pin.LoadSpec

/-!
# Sequences of loads

`loadPWMConfiguration` appends at `numberOfPins`, `loadPinConfiguration` counts its slots from 0.
On an empty table this is the same; on any other table the first record that
`loadPinConfiguration` accepts replaces the one in slot 0.  `loadsCompose_iff` says for which
sequences of calls the table only grows.
-/

namespace SimPokey

open FaultState FirstWins LibConfig

/-! ### Calls -/

/-- A call of one of the loaders. -/
inductive LoadCall (Setting : Type)
  | pins (configuredPorts : Option Setting)
  | pwm (configuredPorts : Option Setting)

section Calls

variable {Setting : Type} [LibConfig Setting]

/-- The call on a device; the result code is dropped. -/
def LoadCall.load (device : Device) : LoadCall Setting → MemRun Device
  | .pins configuredPorts => do
      let r ← loadPinConfiguration configuredPorts device
      pure r.2
  | .pwm configuredPorts => do
      let r ← loadPWMConfiguration configuredPorts device
      pure r.2

/-- The records of the entries that can be accepted. -/
def LoadCall.offered : LoadCall Setting → List DevicePort
  | .pins configuredPorts => (elemsOf configuredPorts).filterMap pinEntryPort
  | .pwm configuredPorts => (elemsOf configuredPorts).filterMap pwmEntryPort

/-- The records the call accepts, when the pins `taken` are in the table. -/
def LoadCall.accepted (taken : List ℤ) (c : LoadCall Setting) : List DevicePort :=
  firstWins DevicePort.pin taken c.offered

/-- What the call `c` leaves of the table `t`: the table `t'`. -/
structure Composed (c : LoadCall Setting) (t : List DevicePort) (m' : Memory) (d' : Device)
    (t' : List DevicePort) : Prop where
  /-- `pins[0..numberOfPins)` are records. -/
  table : tableOf m' d' = t'.map some
  distinct : (t'.map DevicePort.pin).Nodup
  /-- The records present before are at the same indices, unchanged. -/
  kept : t <+: t'
  /-- The call has counted the entries it accepts. -/
  count : d'.numberOfPins = t.length + (c.accepted (t.map DevicePort.pin)).length

/-- Every call of the sequence returns and composes with the table `t` found by it. -/
def LoadsCompose : List (LoadCall Setting) → List DevicePort → Memory → Device → Prop
  | [], _, _, _ => True
  | c :: calls, t, m, d => ∃ d' m' t', (c.load d).run m = .ok d' m' ∧ Composed c t m' d' t' ∧
      LoadsCompose calls t' m' d'

/-- A call of `loadPinConfiguration` finds the table empty, or accepts nothing. -/
def LoadCall.Fits (t : List DevicePort) : LoadCall Setting → Prop
  | .pins configuredPorts =>
      t = [] ∨ (LoadCall.pins configuredPorts).accepted (t.map DevicePort.pin) = []
  | .pwm _ => True

/-- Every call fits the table of what the calls before it accept. -/
def AllFit : List (LoadCall Setting) → List DevicePort → Prop
  | [], _ => True
  | c :: calls, t => c.Fits t ∧ AllFit calls (t ++ c.accepted (t.map DevicePort.pin))

/-! ### Calls that fit -/

/-- A `pins` list that accepts nothing leaves the table as it is. -/
theorem loadPinConfiguration_of_refused {m : Memory} {d : Device} {T : List (ℕ × DevicePort)}
    (h : Holds m d T) {pins : Option Setting}
    (hrefused : (LoadCall.pins pins).accepted ((records T).map DevicePort.pin) = []) :
    ∃ r m', (loadPinConfiguration pins d).run m = .ok (r, d) m' ∧ Holds m' d T := by
  unfold loadPinConfiguration
  cases pins with
  | none => exact ⟨noPins, m, rfl, h⟩
  | some ports =>
    by_cases hlen : (elems ports).length = 0
    · exact ⟨noPins, m, by simp only [hlen, if_true, run_pure], h⟩
    · have hrefused' := firstWins_eq_nil_iff.1 hrefused
      obtain ⟨st, m', hrun, rfl, hholds⟩ := foldlM_total (f := loadPinEntry)
        (fun _ st m' => st = (d, 0) ∧ Holds m' d T) (l := elems ports) (b := (d, 0)) ⟨rfl, h⟩ (by
          rintro done entry rest st m₁ hsplit ⟨rfl, hholds⟩
          obtain ⟨new, hnew, ⟨-, hrun⟩ | ⟨port, hport, hfree, -⟩⟩ :=
            loadPinEntry_of_holds hholds 0 entry
          · exact ⟨_, _, hrun, rfl, hholds.mono (List.prefix_refl _)⟩
          · refine absurd (hrefused' port (List.mem_filterMap.2 ⟨entry, ?_, hport⟩)) hfree
            show entry ∈ elems ports
            rw [hsplit]
            simp)
      refine ⟨0, m', ?_, hholds⟩
      simp only [hlen, if_false]
      rw [bind_of_ok hrun]
      rfl

/-- A call that fits appends what it accepts. -/
theorem LoadCall.load_of_fits {m : Memory} {d : Device} {T : List (ℕ × DevicePort)}
    (h : Holds m d T) {c : LoadCall Setting} (hfits : c.Fits (records T)) :
    ∃ d' m' T', (c.load d).run m = .ok d' m' ∧ Holds m' d' T' ∧
      records T' = records T ++ c.accepted ((records T).map DevicePort.pin) := by
  cases c with
  | pins pins =>
    rcases hfits with hempty | hrefused
    · obtain rfl : T = [] := List.map_eq_nil_iff.1 hempty
      obtain ⟨r, d', m', T', hrun, hext, hrec⟩ := loadPinConfiguration_extends h pins
      refine ⟨d', m', T', ?_, hext.holds, hrec⟩
      rw [LoadCall.load, bind_of_ok hrun]
      rfl
    · obtain ⟨r, m', hrun, hholds⟩ := loadPinConfiguration_of_refused h hrefused
      refine ⟨d, m', T, ?_, hholds, by rw [hrefused, List.append_nil]⟩
      rw [LoadCall.load, bind_of_ok hrun]
      rfl
  | pwm pwm =>
    obtain ⟨r, d', m', T', hrun, hext, hrec⟩ := loadPWMConfiguration_extends h pwm
    refine ⟨d', m', T', ?_, hext.holds, hrec⟩
    rw [LoadCall.load, bind_of_ok hrun]
    rfl

/-- The table a call that fits leaves. -/
theorem Holds.composed {m' : Memory} {d' : Device} {T' : List (ℕ × DevicePort)}
    (h : Holds m' d' T') {t : List DevicePort} (hnodup : (t.map DevicePort.pin).Nodup)
    {c : LoadCall Setting} (hrec : records T' = t ++ c.accepted (t.map DevicePort.pin)) :
    Composed c t m' d' (records T') where
  table := h.tableOf_eq
  distinct := by
    rw [hrec, List.map_append, List.nodup_append]
    refine ⟨hnodup, nodup_map_firstWins _ _, ?_⟩
    rintro p hp q hq rfl
    exact (mem_map_firstWins.1 hq).2 hp
  kept := by
    rw [hrec]
    exact List.prefix_append _ _
  count := by
    have hlen : T'.length = (records T').length := (List.length_map Prod.snd).symm
    rw [h.count, hlen, hrec, List.length_append, Nat.cast_add]

/-! ### Calls that do not fit -/

/-- The heap of records is the same. -/
def SamePorts (m m' : Memory) : Prop := m'.ports = m.ports

instance : IsPreorder Memory SamePorts where
  refl := fun _ => rfl
  trans := fun _ _ _ h h' => h'.trans h

theorem checkPinExistsInConfig_ports (d : Device) (pin : ℤ) :
    Frames SamePorts (checkPinExistsInConfig d pin) := by
  have hread : ∀ i : ℤ, Frames SamePorts (portAt d i) := by
    intro i m
    cases h : slotOf m d i with
    | none => rw [portAt_of_wild h]; rfl
    | some port =>
      obtain ⟨p, -, hrun⟩ := portAt_of_slot h
      rw [hrun]
      rfl
  unfold checkPinExistsInConfig
  generalize List.range d.numberOfPins.toNat = is
  induction is with
  | nil => exact .pure _
  | cons i is ih => exact .bind (hread i) fun _ => .ite _ (.pure _) ih

/-- A turn that returned, on whatever table: nothing happened, or a record was allocated and put
into the slot `pinIndex`, which then advanced. -/
theorem loadPinEntry_ok {st st' : Device × ℤ} {m m' : Memory} {entry : Setting}
    (h : (loadPinEntry st entry).run m = .ok st' m') :
    (st' = st ∧ m'.ports = m.ports) ∨
      ∃ port, st'.1.pins = Function.update st.1.pins st.2 (some m.ports.length) ∧
        st'.2 = st.2 + 1 ∧ m'.ports = m.ports ++ [port] := by
  unfold loadPinEntry at h
  cases hpin : lookupInt entry "pin" with
  | none =>
    rw [hpin] at h
    cases h
    exact Or.inl ⟨rfl, rfl⟩
  | some pin =>
    rw [hpin] at h
    obtain ⟨found, m₁, hcheck, h⟩ := bind_ok_iff.1 h
    have hports := checkPinExistsInConfig_ports st.1 pin m
    rw [hcheck] at hports
    have hports₁ : m₁.ports = m.ports := hports
    rw [run_ite] at h
    split_ifs at h with hfound
    · cases h
      exact Or.inl ⟨rfl, hports₁⟩
    · cases htype : lookupString entry "type" with
      | none =>
        rw [htype] at h
        cases h
        exact Or.inl ⟨rfl, hports₁⟩
      | some tempType =>
        rw [htype] at h
        cases h
        exact Or.inr ⟨_, by rw [← hports₁], rfl, by rw [← hports₁]⟩

/-- Once slot 0 has been filled, no further turn touches it. -/
theorem loadPinEntry_keeps_first {st st' : Device × ℤ} {m m' : Memory} {entry : Setting}
    (h : (loadPinEntry st entry).run m = .ok st' m') (hindex : 1 ≤ st.2) {port : DevicePort}
    (hslot : slotOf m st.1 0 = some port) : 1 ≤ st'.2 ∧ slotOf m' st'.1 0 = some port := by
  rcases loadPinEntry_ok h with ⟨rfl, hports⟩ | ⟨new, hpins, hindex', hports⟩
  · exact ⟨hindex, by rw [slotOf_congr _ hports, hslot]⟩
  · refine ⟨by omega, ?_⟩
    obtain ⟨p, hp, hport⟩ := Option.bind_eq_some_iff.1 hslot
    have hlt : p < m.ports.length := (List.getElem?_eq_some_iff.1 hport).1
    rw [slotOf, hpins, Function.update_of_ne (by omega), hp, Option.bind_some, hports,
      List.getElem?_append_left hlt, hport]

/-- The state of the loop after the entries `done`: the table is as it was, or a record that was
not in it has come into slot 0. -/
inductive Overwriting (d : Device) (T : List (ℕ × DevicePort)) (done : List Setting)
    (st : Device × ℤ) (m : Memory) : Prop
  | untouched (hst : st = (d, 0)) (hholds : Holds m d T)
      (hall : ∀ port ∈ done.filterMap pinEntryPort, port.pin ∈ (records T).map DevicePort.pin)
  | overwritten (hindex : 1 ≤ st.2) (port : DevicePort) (hslot : slotOf m st.1 0 = some port)
      (hnew : port.pin ∉ (records T).map DevicePort.pin)

theorem Overwriting.turn {d : Device} {T : List (ℕ × DevicePort)} {done : List Setting}
    {entry : Setting} {st st' : Device × ℤ} {m m' : Memory} (h : Overwriting d T done st m)
    (hturn : (loadPinEntry st entry).run m = .ok st' m') :
    Overwriting d T (done ++ [entry]) st' m' := by
  cases h with
  | untouched hst hholds hall =>
    subst hst
    obtain ⟨new, -, ⟨hrefused, hrun⟩ | ⟨port, hport, hfree, hrun⟩⟩ :=
      loadPinEntry_of_holds hholds 0 entry
    · rw [hturn] at hrun
      cases hrun
      refine .untouched rfl (hholds.mono (List.prefix_refl _)) fun port hport => ?_
      rw [List.filterMap_append, List.mem_append] at hport
      rcases hport with hport | hport
      · exact hall port hport
      · obtain ⟨entry', hmem, hport'⟩ := List.mem_filterMap.1 hport
        rw [List.mem_singleton.1 hmem] at hport'
        exact hrefused port hport'
    · rw [hturn] at hrun
      cases hrun
      exact .overwritten (by simp) port (by simp [slotOf]) hfree
  | overwritten hindex port hslot hnew =>
    obtain ⟨hindex', hslot'⟩ := loadPinEntry_keeps_first hturn hindex hslot
    exact .overwritten hindex' port hslot' hnew

/-- **On a table that is not empty, the first record `loadPinConfiguration` accepts ends up in
slot 0.** -/
theorem loadPinConfiguration_overwrites {m m' : Memory} {d d' : Device}
    {T : List (ℕ × DevicePort)} (h : Holds m d T) {pins : Option Setting} {r : ℤ}
    (haccepts : (LoadCall.pins pins).accepted ((records T).map DevicePort.pin) ≠ [])
    (hrun : (loadPinConfiguration pins d).run m = .ok (r, d') m') :
    ∃ port, slotOf m' d' 0 = some port ∧ port.pin ∉ (records T).map DevicePort.pin := by
  have hsome : ¬ ∀ port ∈ (LoadCall.pins pins).offered,
      port.pin ∈ (records T).map DevicePort.pin := fun hall =>
    haccepts (firstWins_eq_nil_iff.2 hall)
  unfold loadPinConfiguration at hrun
  cases pins with
  | none => exact absurd (by simp [LoadCall.offered, elemsOf]) hsome
  | some ports =>
    by_cases hlen : (elems ports).length = 0
    · have hnil : elems ports = [] := List.length_eq_zero_iff.1 hlen
      exact absurd (by simp [LoadCall.offered, elemsOf, hnil]) hsome
    · simp only [hlen, if_false] at hrun
      obtain ⟨st, m₁, hloop, hret⟩ := bind_ok_iff.1 hrun
      cases hret
      have hend : Overwriting d T (elems ports) st m' :=
        foldlM_partial (Overwriting d T) (.untouched rfl h (by simp))
          (fun _ _ _ _ _ _ hI hturn => hI.turn hturn) hloop
      cases hend with
      | untouched _ _ hall => exact absurd hall hsome
      | overwritten _ port hslot hnew => exact ⟨port, hslot, hnew⟩

/-- A call that does not fit loses the record in slot 0, if it returns. -/
theorem LoadCall.not_composed {m m' : Memory} {d d' : Device} {T : List (ℕ × DevicePort)}
    (h : Holds m d T) {c : LoadCall Setting} (hfits : ¬ c.Fits (records T))
    (hrun : (c.load d).run m = .ok d' m') (t' : List DevicePort) :
    ¬ Composed c (records T) m' d' t' := by
  intro hcomposed
  cases c with
  | pwm pwm => exact hfits trivial
  | pins pins =>
    simp only [LoadCall.Fits, not_or] at hfits
    obtain ⟨hne, haccepts⟩ := hfits
    rw [LoadCall.load] at hrun
    obtain ⟨r, m₁, hload, hret⟩ := bind_ok_iff.1 hrun
    cases hret
    obtain ⟨port, hslot, hnew⟩ := loadPinConfiguration_overwrites h haccepts hload
    -- slot 0 would have to lead to the record it led to before
    obtain ⟨first, rest, hT⟩ := List.exists_cons_of_ne_nil hne
    obtain ⟨more, hmore⟩ := hcomposed.kept
    have hhead : (tableOf m' r.2).head? = some (some first) := by
      rw [hcomposed.table, ← hmore, hT]
      rfl
    have hzero : (tableOf m' r.2).head? = some (slotOf m' r.2 0) := by
      rw [tableOf] at hhead ⊢
      cases hn : r.2.numberOfPins.toNat with
      | zero => rw [hn] at hhead; cases hhead
      | succ n => simp [List.range_succ_eq_map]
    rw [hzero, hslot] at hhead
    obtain rfl : port = first := by simpa using hhead
    rw [hT] at hnew
    exact hnew List.mem_cons_self

/-! ### Sequences -/

theorem loadsCompose_iff_of_holds {m : Memory} {d : Device} {T : List (ℕ × DevicePort)}
    (h : Holds m d T) (hnodup : ((records T).map DevicePort.pin).Nodup)
    (calls : List (LoadCall Setting)) :
    LoadsCompose calls (records T) m d ↔ AllFit calls (records T) := by
  induction calls generalizing m d T with
  | nil => exact Iff.rfl
  | cons c calls ih =>
    rw [LoadsCompose, AllFit]
    by_cases hfits : c.Fits (records T)
    · obtain ⟨d', m', T', hrun, hholds, hrec⟩ := LoadCall.load_of_fits h hfits
      have hcomposed := hholds.composed hnodup hrec
      have hrest := ih hholds hcomposed.distinct
      constructor
      · rintro ⟨d₁, m₁, t₁, hrun₁, hcomposed₁, hcalls⟩
        rw [hrun] at hrun₁
        cases hrun₁
        have ht : t₁ = records T' :=
          List.map_injective_iff.2 (Option.some_injective _)
            (hcomposed₁.table.symm.trans hholds.tableOf_eq)
        rw [← hrec]
        exact ⟨hfits, hrest.1 (ht ▸ hcalls)⟩
      · rintro ⟨-, hcalls⟩
        rw [← hrec] at hcalls
        exact ⟨d', m', records T', hrun, hcomposed, hrest.2 hcalls⟩
    · refine iff_of_false ?_ fun hall => hfits hall.1
      rintro ⟨d', m', t', hrun, hcomposed, -⟩
      exact LoadCall.not_composed h hfits hrun t' hcomposed

/-- **Which sequences of loads compose.** -/
theorem loadsCompose_iff (calls : List (LoadCall Setting)) (d : Device) (m : Memory)
    (hempty : d.numberOfPins = 0) : LoadsCompose calls [] m d ↔ AllFit calls [] :=
  loadsCompose_iff_of_holds (holds_nil (m := m) hempty) (by simp) calls

end Calls

/-- A call for one output. -/
def outputCall : LoadCall Tree := .pins (some (.list [.port 3 "DIGITAL_OUTPUT"]))

/-- A call for one PWM channel, on pin 19. -/
def pwmCall : LoadCall Tree := .pwm (some (.list [.pwm 4 40]))

/-- `pins` first, and then `pwm` twice. -/
theorem loadsCompose_pins_first : LoadsCompose [outputCall, pwmCall, pwmCall] [] .empty .cleared :=
  (loadsCompose_iff [outputCall, pwmCall, pwmCall] .cleared .empty rfl).2
    ⟨Or.inl rfl, trivial, trivial, trivial⟩

/-- `pwm` first: the output replaces the PWM pin, and the slot counted for it is left as it was. -/
theorem loadsCompose_pwm_first :
    ∃ d₁ m₁ d₂ m₂, (pwmCall.load .cleared).run .empty = .ok d₁ m₁ ∧
      (outputCall.load d₁).run m₁ = .ok d₂ m₂ ∧
      (tableOf m₁ d₁).map (Option.map DevicePort.pin) = [some 19] ∧
      d₂.numberOfPins = 2 ∧ (tableOf m₂ d₂).map (Option.map DevicePort.pin) = [some 3, none] ∧
      ¬ LoadsCompose [pwmCall, outputCall] [] .empty .cleared := by
  refine ⟨_, _, _, _, ok_of_value (Option.some_get (by decide)).symm,
    ok_of_value (Option.some_get (by decide)).symm, by decide, by decide, by decide, fun h => ?_⟩
  have hall := (loadsCompose_iff_of_holds (holds_nil (m := .empty) (d := .cleared) rfl)
    List.nodup_nil [pwmCall, outputCall]).1 h
  obtain ⟨-, hfits, -⟩ := hall
  rcases hfits with hempty | hrefused
  · exact absurd hempty (by decide)
  · exact absurd hrefused (by decide)

end SimPokey
