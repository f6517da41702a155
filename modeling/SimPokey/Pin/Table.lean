import SimPokey.Lib.FirstWins
import SimPokey.Pin.Load

/-!
# The pin table the loaders build

`Holds m d T` says that the table of the device `d` is `T`: a list of pointers, all different,
with the records they lead to.  From a device whose table is `T`, both loaders return (they meet no
fault), keep the entries of `T` where they are and append the accepted ones (`Extends`).  What
they append is a first-wins selection by pin number (`loadPinConfiguration_extends`,
`loadPWMConfiguration_extends`), and the two together give `acceptedTable`.
-/

namespace SimPokey

open FaultState FirstWins LibConfig

/-! ### Tables -/

/-- The record that `pins[i]` points at, if there is one. -/
def slotOf (m : Memory) (d : Device) (i : ℤ) : Option DevicePort :=
  (d.pins i).bind fun p => m.ports[p]?

/-- The table `pins[0..numberOfPins)`, read through its pointers. -/
def tableOf (m : Memory) (d : Device) : List (Option DevicePort) :=
  (List.range d.numberOfPins.toNat).map fun (i : ℕ) => slotOf m d i

theorem slotOf_congr {m m' : Memory} (d : Device) (h : m'.ports = m.ports) :
    slotOf m' d = slotOf m d := by
  funext i
  rw [slotOf, slotOf, h]

theorem tableOf_congr {m m' : Memory} (d : Device) (h : m'.ports = m.ports) :
    tableOf m' d = tableOf m d := by
  rw [tableOf, tableOf, slotOf_congr d h]

theorem portAt_of_wild {m : Memory} {d : Device} {i : ℤ} (h : slotOf m d i = none) :
    (portAt d i).run m = .error .wildPort (m.touch (.pins i)) := by
  simp only [portAt, EStateM.run]
  cases hp : d.pins i with
  | none => rfl
  | some p =>
    have hport : m.ports[p]? = none := by simpa [slotOf, hp] using h
    simp only [hport]

theorem portAt_of_slot {m : Memory} {d : Device} {i : ℤ} {port : DevicePort}
    (h : slotOf m d i = some port) :
    ∃ p, m.ports[p]? = some port ∧ (portAt d i).run m = .ok (p, port) (m.touch (.pins i)) := by
  obtain ⟨p, hp, hport⟩ := Option.bind_eq_some_iff.1 h
  exact ⟨p, hport, by simp only [portAt, EStateM.run, hp, hport]⟩

/-- The table of `d` is `T`: pointers, all different, with the records they lead to. -/
structure Holds (m : Memory) (d : Device) (T : List (ℕ × DevicePort)) : Prop where
  count : d.numberOfPins = T.length
  slot : ∀ (i : ℕ) (t : ℕ × DevicePort), T[i]? = some t → d.pins i = some t.1
  port : ∀ t ∈ T, m.ports[t.1]? = some t.2
  nodup : (T.map Prod.fst).Nodup

/-- The records of a table. -/
abbrev records (T : List (ℕ × DevicePort)) : List DevicePort := T.map Prod.snd

theorem holds_nil {m : Memory} {d : Device} (h : d.numberOfPins = 0) : Holds m d [] where
  count := by simpa using h
  slot := by simp
  port := by simp
  nodup := by simp

theorem Holds.tableOf_eq {m : Memory} {d : Device} {T : List (ℕ × DevicePort)} (h : Holds m d T) :
    tableOf m d = (records T).map some := by
  apply List.ext_getElem?
  intro i
  simp only [tableOf, h.count, Int.toNat_natCast, List.getElem?_map]
  cases hT : T[i]? with
  | none =>
    have hi : T.length ≤ i := List.getElem?_eq_none_iff.1 hT
    rw [List.getElem?_eq_none (by simpa using hi)]
    rfl
  | some t =>
    have hi : i < T.length := (List.getElem?_eq_some_iff.1 hT).1
    rw [List.getElem?_range hi]
    simp only [Option.map_some, slotOf, h.slot i t hT, Option.bind_some]
    rw [h.port t (List.mem_of_getElem? hT)]

/-- A table of records with distinct pins is held by distinct pointers. -/
theorem holds_of_tableOf {m : Memory} {d : Device} {ps : List DevicePort}
    (hcount : d.numberOfPins = ps.length) (htable : tableOf m d = ps.map some)
    (hnodup : (ps.map DevicePort.pin).Nodup) : ∃ T, Holds m d T ∧ records T = ps := by
  have hslot : ∀ i : Fin ps.length, ∃ p, d.pins (i : ℕ) = some p ∧ m.ports[p]? = some ps[i] := by
    intro i
    have hget : (tableOf m d)[(i : ℕ)]? = some (some ps[i]) := by simp [htable]
    rw [tableOf, hcount, Int.toNat_natCast, List.getElem?_map, List.getElem?_range i.isLt] at hget
    exact Option.bind_eq_some_iff.1 (Option.some.inj hget)
  choose pointer hpointer hport using hslot
  have hrecords : records (List.ofFn fun i => (pointer i, ps[i])) = ps := by
    rw [records, List.map_ofFn]
    exact List.ofFn_getElem
  refine ⟨List.ofFn fun i => (pointer i, ps[i]), ⟨?_, ?_, ?_, ?_⟩, hrecords⟩
  · rw [hcount, List.length_ofFn]
  · intro i t ht
    rw [List.getElem?_ofFn] at ht
    split at ht
    · rename_i hi
      rw [← Option.some.inj ht]
      exact hpointer ⟨i, hi⟩
    · cases ht
  · intro t ht
    obtain ⟨i, rfl⟩ := List.mem_ofFn.1 ht
    exact hport i
  · rw [List.map_ofFn, List.nodup_ofFn]
    intro i j hij
    have hij' : pointer i = pointer j := hij
    have hrecord : ps[i] = ps[j] := by
      have hi := hport i
      rw [hij', hport j] at hi
      exact (Option.some.inj hi).symm
    exact Fin.ext ((List.Nodup.of_map _ hnodup).getElem_inj_iff.1 hrecord)

/-- A heap with the records `ps`. -/
def memoryOf (ps : List DevicePort) : Memory := ⟨ps, [], [], [], []⟩

/-- A connected device whose table are the records `ps` of `memoryOf ps`. -/
def deviceOf (ps : List DevicePort) (pokey : PoKeysDevice) : Device :=
  { Device.cleared with
    hasPokey := 1
    numberOfPins := ps.length
    pokey := some pokey
    pins := fun i => if 0 ≤ i then some i.toNat else none }

theorem holds_deviceOf (ps : List DevicePort) (pokey : PoKeysDevice) :
    Holds (memoryOf ps) (deviceOf ps pokey) (ps.zipIdx.map Prod.swap) where
  count := by simp [deviceOf]
  slot := fun i t ht => by
    rw [List.getElem?_map, List.getElem?_zipIdx, Option.map_map, Option.map_eq_some_iff] at ht
    obtain ⟨p, -, rfl⟩ := ht
    simp [deviceOf]
  port := fun t ht => by
    obtain ⟨e, he, rfl⟩ := List.mem_map.1 ht
    exact List.mem_zipIdx_iff_getElem?.1 he
  nodup := by
    have hslots : (ps.zipIdx.map Prod.swap).map Prod.fst = ps.zipIdx.map Prod.snd := by
      rw [List.map_map]
      rfl
    rw [hslots, List.zipIdx_map_snd]
    exact List.nodup_range'

theorem tableOf_deviceOf (ps : List DevicePort) (pokey : PoKeysDevice) :
    tableOf (memoryOf ps) (deviceOf ps pokey) = ps.map some := by
  have hrecords : records (ps.zipIdx.map Prod.swap) = ps := by
    rw [records, List.map_map]
    exact List.zipIdx_map_fst 0 ps
  rw [(holds_deviceOf ps pokey).tableOf_eq, hrecords]

/-- Only the records in the heap matter, and allocation keeps them. -/
theorem Holds.mono {m m' : Memory} {d : Device} {T : List (ℕ × DevicePort)} (h : Holds m d T)
    (hp : m.ports <+: m'.ports) : Holds m' d T where
  count := h.count
  slot := h.slot
  port := fun t ht => by
    obtain ⟨more, hmore⟩ := hp
    have hlt := (List.getElem?_eq_some_iff.1 (h.port t ht)).1
    rw [← hmore, List.getElem?_append_left hlt]
    exact h.port t ht
  nodup := h.nodup

theorem Holds.fst_lt {m : Memory} {d : Device} {T : List (ℕ × DevicePort)} (h : Holds m d T)
    {t : ℕ × DevicePort} (ht : t ∈ T) : t.1 < m.ports.length :=
  (List.getElem?_eq_some_iff.1 (h.port t ht)).1

theorem portAt_of_holds {m : Memory} {d : Device} {T : List (ℕ × DevicePort)} (h : Holds m d T)
    {i : ℕ} {t : ℕ × DevicePort} (ht : T[i]? = some t) :
    (portAt d i).run m = .ok t (m.touch (.pins i)) := by
  have hport := h.port t (List.mem_of_getElem? ht)
  simp only [portAt, EStateM.run, h.slot i t ht, hport]

/-! ### The search for a pin -/

/-- A search over the slots from `k` on finds the pin exactly when a record there has it; it
changes nothing but the record of the slots it read. -/
theorem checkPinExistsFrom_of_holds {d : Device} {T : List (ℕ × DevicePort)} (pin : ℤ) (n : ℕ) :
    ∀ (k : ℕ) (m : Memory), k + n = T.length → Holds m d T →
      ∃ new, (∀ a ∈ new, ∃ i : ℕ, i < T.length ∧ a = .pins i) ∧
        (checkPinExistsFrom d pin (List.range' k n)).run m =
          .ok (if pin ∈ (records (T.drop k)).map DevicePort.pin then pinExists else pinFree)
            { m with accesses := m.accesses ++ new } := by
  induction n with
  | zero =>
    intro k m hk h
    have hdrop : T.drop k = [] := List.drop_eq_nil_of_le (by omega)
    refine ⟨[], by simp, ?_⟩
    rw [hdrop]
    simp [checkPinExistsFrom, pinFree]
  | succ n ih =>
    intro k m hk h
    have hlt : k < T.length := by omega
    have hread := portAt_of_holds h (List.getElem?_eq_getElem hlt)
    rw [List.drop_eq_getElem_cons hlt, List.range'_succ]
    simp only [checkPinExistsFrom, List.map_cons, List.mem_cons]
    rw [bind_of_ok hread]
    by_cases hpin : pin = T[k].2.pin
    · refine ⟨[.pins k], fun a ha => ⟨k, hlt, by simpa using ha⟩, ?_⟩
      simp only [hpin, true_or, if_true, run_pure]
      rfl
    · obtain ⟨new, hnew, hrest⟩ := ih (k + 1) (m.touch (.pins k)) (by omega)
        (h.mono (List.prefix_refl _))
      refine ⟨.pins k :: new, ?_, ?_⟩
      · intro a ha
        rcases List.mem_cons.1 ha with rfl | ha
        · exact ⟨k, hlt, rfl⟩
        · exact hnew a ha
      · simp only [hpin, false_or, if_false]
        rw [hrest]
        simp [Memory.touch]

theorem checkPinExistsInConfig_of_holds {m : Memory} {d : Device} {T : List (ℕ × DevicePort)}
    (h : Holds m d T) (pin : ℤ) :
    ∃ new, (∀ a ∈ new, ∃ i : ℕ, i < T.length ∧ a = .pins i) ∧
      (checkPinExistsInConfig d pin).run m =
        .ok (if pin ∈ (records T).map DevicePort.pin then pinExists else pinFree)
          { m with accesses := m.accesses ++ new } := by
  have hfrom := checkPinExistsFrom_of_holds pin T.length 0 m (by omega) h
  rw [List.drop_zero] at hfrom
  rwa [checkPinExistsInConfig, h.count, Int.toNat_natCast, List.range_eq_range']

/-! ### Extending a table -/

/-- From the table `T` of `d` to the table `T'` of `d'`, by appending records: what was there
stays, nothing else of the device changes, and the slots of `pins[]` that were used are slots of
the new table, among them every new one. -/
structure Extends (m : Memory) (d : Device) (T : List (ℕ × DevicePort)) (m' : Memory) (d' : Device)
    (T' : List (ℕ × DevicePort)) : Prop where
  holds : Holds m' d' T'
  grown : T <+: T'
  ports : m.ports <+: m'.ports
  device : d' = { d with numberOfPins := d'.numberOfPins, pins := d'.pins }
  sent : m'.sent = m.sent
  messages : m'.messages = m.messages
  accesses : ∃ new, m'.accesses = m.accesses ++ new ∧
    (∀ a ∈ new, ∃ i : ℕ, i < T'.length ∧ a = .pins i) ∧
    ∀ i : ℕ, T.length ≤ i → i < T'.length → .pins i ∈ new

theorem Holds.extends_reads {m : Memory} {d : Device} {T : List (ℕ × DevicePort)}
    (h : Holds m d T) {new : List Access}
    (hnew : ∀ a ∈ new, ∃ i : ℕ, i < T.length ∧ a = .pins i) :
    Extends m d T { m with accesses := m.accesses ++ new } d T where
  holds := h.mono (List.prefix_refl _)
  grown := List.prefix_refl _
  ports := List.prefix_refl _
  device := rfl
  sent := rfl
  messages := rfl
  accesses := ⟨new, rfl, hnew, fun i h₁ h₂ => by omega⟩

theorem Holds.extends_refl {m : Memory} {d : Device} {T : List (ℕ × DevicePort)}
    (h : Holds m d T) : Extends m d T m d T := by
  simpa using h.extends_reads fun a (ha : a ∈ []) => absurd ha List.not_mem_nil

theorem Extends.trans {m m' m'' : Memory} {d d' d'' : Device} {T T' T'' : List (ℕ × DevicePort)}
    (h : Extends m d T m' d' T') (h' : Extends m' d' T' m'' d'' T'') :
    Extends m d T m'' d'' T'' where
  holds := h'.holds
  grown := h.grown.trans h'.grown
  ports := h.ports.trans h'.ports
  device := by rw [h'.device, h.device]
  sent := h'.sent.trans h.sent
  messages := h'.messages.trans h.messages
  accesses := by
    obtain ⟨new, hnew, hin, hall⟩ := h.accesses
    obtain ⟨new', hnew', hin', hall'⟩ := h'.accesses
    refine ⟨new ++ new', by rw [hnew', hnew, List.append_assoc], fun a ha => ?_, fun i h₁ h₂ => ?_⟩
    · rcases List.mem_append.1 ha with ha | ha
      · obtain ⟨i, hi, rfl⟩ := hin a ha
        exact ⟨i, lt_of_lt_of_le hi h'.grown.length_le, rfl⟩
      · exact hin' a ha
    · by_cases hi : i < T'.length
      · exact List.mem_append_left _ (hall i h₁ hi)
      · exact List.mem_append_right _ (hall' i (by omega) h₂)

/-- Storing a record in the first free slot and counting it appends it to the table. -/
theorem Holds.extends_storePort {m : Memory} {d : Device} {T : List (ℕ × DevicePort)}
    (h : Holds m d T) (port : DevicePort) :
    Extends m d T { m.touch (.pins T.length) with ports := m.ports ++ [port] }
      { d with
        pins := Function.update d.pins T.length (some m.ports.length)
        numberOfPins := d.numberOfPins + 1 }
      (T ++ [(m.ports.length, port)]) where
  holds := by
    refine ⟨?_, fun i t ht => ?_, fun t ht => ?_, ?_⟩
    · simp [h.count]
    · by_cases hi : i < T.length
      · rw [List.getElem?_append_left hi] at ht
        have hne : (i : ℤ) ≠ T.length := by omega
        show Function.update d.pins T.length (some m.ports.length) i = some t.1
        rw [Function.update_of_ne hne]
        exact h.slot i t ht
      · have hlen := (List.getElem?_eq_some_iff.1 ht).1
        rw [List.length_append, List.length_singleton] at hlen
        have hi' : i = T.length := by omega
        subst hi'
        simp only [List.getElem?_concat_length, Option.some.injEq] at ht
        simp [← ht]
    · rcases List.mem_append.1 ht with ht | ht
      · show (m.ports ++ [port])[t.1]? = some t.2
        rw [List.getElem?_append_left (h.fst_lt ht)]
        exact h.port t ht
      · rw [List.mem_singleton] at ht
        simp [ht]
    · -- a fresh pointer is beyond every pointer of the table
      rw [List.map_append, List.nodup_append]
      refine ⟨h.nodup, by simp, fun p hp q hq => ?_⟩
      obtain ⟨t, ht, rfl⟩ := List.mem_map.1 hp
      have hlt := h.fst_lt ht
      simp only [List.map_cons, List.map_nil, List.mem_singleton] at hq
      omega
  grown := List.prefix_append _ _
  ports := List.prefix_append _ _
  device := rfl
  sent := rfl
  messages := rfl
  accesses := by
    refine ⟨[.pins T.length], rfl, fun a ha => ⟨T.length, by simp, by simpa using ha⟩,
      fun i h₁ h₂ => ?_⟩
    rw [List.length_append, List.length_singleton] at h₂
    have hi : i = T.length := by omega
    simp [hi]

/-! ### Offering entries -/

/-- `T'` extends `T` by the record `port`, offered to it. -/
def Offered (port : Option DevicePort) (T T' : List (ℕ × DevicePort)) : Prop :=
  records T' = port.elim (records T) (offer DevicePort.pin (records T))

theorem offered_of_exists {T : List (ℕ × DevicePort)} {port : DevicePort}
    (h : port.pin ∈ (records T).map DevicePort.pin) : Offered (some port) T T :=
  (offer_of_mem h).symm

theorem offered_of_free {T : List (ℕ × DevicePort)} {port : DevicePort} (p : ℕ)
    (h : port.pin ∉ (records T).map DevicePort.pin) :
    Offered (some port) T (T ++ [(p, port)]) := by
  simp only [Offered, Option.elim_some, offer_of_not_mem h, List.map_append, List.map_cons,
    List.map_nil]

/-- A loop whose turns offer one entry after the other appends a first-wins selection. -/
theorem foldlM_offer {β Setting : Type} (body : β → Setting → MemRun β) (dev : β → Device)
    (good : β → List (ℕ × DevicePort) → Prop) (port : Setting → Option DevicePort)
    (hbody : ∀ b m T entry, good b T → Holds m (dev b) T →
      ∃ b' m' T', (body b entry).run m = .ok b' m' ∧ good b' T' ∧
        Extends m (dev b) T m' (dev b') T' ∧ Offered (port entry) T T')
    (entries : List Setting) {b : β} {m : Memory} {T : List (ℕ × DevicePort)} (hb : good b T)
    (h : Holds m (dev b) T) :
    ∃ b' m' T', (entries.foldlM body b).run m = .ok b' m' ∧ good b' T' ∧
      Extends m (dev b) T m' (dev b') T' ∧
      records T' = records T ++
        firstWins DevicePort.pin ((records T).map DevicePort.pin) (entries.filterMap port) := by
  -- after the entries `done`, the table is the fold of the offers of `done`
  let I : List Setting → β → Memory → Prop := fun done b' m' => ∃ T', good b' T' ∧
    Extends m (dev b) T m' (dev b') T' ∧
    records T' = (done.filterMap port).foldl (offer DevicePort.pin) (records T)
  have hstep : ∀ done entry rest b₁ m₁, entries = done ++ entry :: rest → I done b₁ m₁ →
      ∃ b₂ m₂, (body b₁ entry).run m₁ = .ok b₂ m₂ ∧ I (done ++ [entry]) b₂ m₂ := by
    rintro done entry rest b₁ m₁ - ⟨T₁, hb₁, hext, hrec⟩
    obtain ⟨b₂, m₂, T₂, hrun, hb₂, hext₂, hoff⟩ := hbody b₁ m₁ T₁ entry hb₁ hext.holds
    refine ⟨b₂, m₂, hrun, T₂, hb₂, hext.trans hext₂, ?_⟩
    rw [hoff, hrec, List.filterMap_append, List.foldl_append]
    cases hport : port entry <;> simp [hport]
  obtain ⟨b', m', hrun, T', hb', hext, hrec⟩ :=
    foldlM_total I (l := entries) ⟨T, hb, h.extends_refl, by simp⟩ hstep
  exact ⟨b', m', T', hrun, hb', hext, by rw [hrec, foldl_offer]⟩

/-! ### What the loaders accept -/

section Loaders

variable {Setting : Type} [LibConfig Setting]

/-- The record of an entry of `pins`, if the entry has both a pin and a type. -/
def pinEntryPort (entry : Setting) : Option DevicePort :=
  (lookupInt entry "pin").bind fun pin =>
    (lookupString entry "type").map fun tempType => pinPort entry pin tempType

/-- The record of an entry of `pwm`, if the entry has a channel with a pin. -/
def pwmEntryPort (entry : Setting) : Option DevicePort :=
  (lookupInt entry "channel").bind fun channel => (pwmPin channel).map fun pin => pwmPort entry pin

/-- The records accepted from the entries `P` of `pins`. -/
def acceptedPins (P : List Setting) : List DevicePort :=
  firstWins DevicePort.pin [] (P.filterMap pinEntryPort)

/-- The records accepted from the entries `W` of `pwm` when the pins `taken` are in the table. -/
def acceptedPwm (taken : List ℤ) (W : List Setting) : List DevicePort :=
  firstWins DevicePort.pin taken (W.filterMap pwmEntryPort)

/-- The records accepted from `P` and then from `W`, starting with an empty table. -/
def acceptedTable (P W : List Setting) : List DevicePort :=
  acceptedPins P ++ acceptedPwm ((acceptedPins P).map DevicePort.pin) W

/-- One turn of `loadPinConfiguration` on a table, whatever `pinIndex` is: the record of the entry
is refused, or stored in the slot `pinIndex`. -/
theorem loadPinEntry_of_holds {m : Memory} {d : Device} {T : List (ℕ × DevicePort)}
    (h : Holds m d T) (i : ℤ) (entry : Setting) :
    ∃ new, (∀ a ∈ new, ∃ k : ℕ, k < T.length ∧ a = .pins k) ∧
      ((∀ port, pinEntryPort entry = some port → port.pin ∈ (records T).map DevicePort.pin) ∧
          (loadPinEntry (d, i) entry).run m =
            .ok (d, i) { m with accesses := m.accesses ++ new } ∨
        ∃ port, pinEntryPort entry = some port ∧ port.pin ∉ (records T).map DevicePort.pin ∧
          (loadPinEntry (d, i) entry).run m =
            .ok ({ d with
                pins := Function.update d.pins i (some m.ports.length)
                numberOfPins := d.numberOfPins + 1 }, i + 1)
              { m with
                accesses := m.accesses ++ new ++ [.pins i]
                ports := m.ports ++ [port] }) := by
  unfold loadPinEntry
  cases hpin : lookupInt entry "pin" with
  | none =>
    refine ⟨[], by simp, Or.inl ⟨by simp [pinEntryPort, hpin], ?_⟩⟩
    rw [List.append_nil]
    rfl
  | some pin =>
    obtain ⟨new, hnew, hcheck⟩ := checkPinExistsInConfig_of_holds h pin
    refine ⟨new, hnew, ?_⟩
    simp only
    rw [bind_of_ok hcheck]
    by_cases hmem : pin ∈ (records T).map DevicePort.pin
    · refine Or.inl ⟨fun port hport => ?_, by simp only [hmem, if_true, run_pure]⟩
      simp only [pinEntryPort, hpin, Option.bind_some, Option.map_eq_some_iff] at hport
      obtain ⟨tempType, -, rfl⟩ := hport
      exact hmem
    · simp only [hmem, if_false, show ¬ pinFree = pinExists by decide]
      cases htype : lookupString entry "type" with
      | none => exact Or.inl ⟨by simp [pinEntryPort, hpin, htype], rfl⟩
      | some tempType =>
        exact Or.inr ⟨pinPort entry pin tempType, by simp [pinEntryPort, hpin, htype], hmem, rfl⟩

/-- One turn of `loadPinConfiguration` offers the entry's record to the table. -/
theorem loadPinEntry_extends {m : Memory} {d : Device} {T : List (ℕ × DevicePort)}
    (h : Holds m d T) (entry : Setting) :
    ∃ d' m' T', (loadPinEntry (d, (T.length : ℤ)) entry).run m = .ok (d', (T'.length : ℤ)) m' ∧
      Extends m d T m' d' T' ∧ Offered (pinEntryPort entry) T T' := by
  obtain ⟨new, hnew, ⟨hrefused, hrun⟩ | ⟨port, hport, hfree, hrun⟩⟩ :=
    loadPinEntry_of_holds h T.length entry
  · refine ⟨d, _, T, hrun, h.extends_reads hnew, ?_⟩
    cases hport : pinEntryPort entry with
    | none => rfl
    | some port => exact offered_of_exists (hrefused port hport)
  · have hreads := h.extends_reads hnew
    refine ⟨_, _, T ++ [(m.ports.length, port)], ?_,
      hreads.trans (hreads.holds.extends_storePort port), ?_⟩
    · rw [hrun]
      simp only [List.length_append, List.length_singleton, Nat.cast_add, Nat.cast_one]
      rfl
    · rw [hport]
      exact offered_of_free _ hfree

/-- One turn of `loadPWMConfiguration` offers the entry's record to the table. -/
theorem loadPWMEntry_extends {m : Memory} {d : Device} {T : List (ℕ × DevicePort)}
    (h : Holds m d T) (entry : Setting) :
    ∃ d' m' T', (loadPWMEntry d entry).run m = .ok d' m' ∧
      Extends m d T m' d' T' ∧ Offered (pwmEntryPort entry) T T' := by
  unfold loadPWMEntry
  cases hch : lookupInt entry "channel" with
  | none => exact ⟨d, m, T, rfl, h.extends_refl, by simp [Offered, pwmEntryPort, hch]⟩
  | some channel =>
    simp only
    cases hpin : pwmPin channel with
    | none => exact ⟨d, m, T, rfl, h.extends_refl, by simp [Offered, pwmEntryPort, hch, hpin]⟩
    | some pin =>
      obtain ⟨new, hnew, hcheck⟩ := checkPinExistsInConfig_of_holds h pin
      have hreads := h.extends_reads hnew
      have hport : pwmEntryPort entry = some (pwmPort entry pin) := by
        simp [pwmEntryPort, hch, hpin]
      simp only
      rw [bind_of_ok hcheck, hport]
      by_cases hmem : pin ∈ (records T).map DevicePort.pin
      · exact ⟨d, _, T, by simp only [hmem, if_true, run_pure], hreads, offered_of_exists hmem⟩
      · simp only [hmem, if_false, show ¬ pinFree = pinExists by decide]
        rw [h.count]
        exact ⟨_, _, _, rfl, hreads.trans (hreads.holds.extends_storePort _),
          offered_of_free _ hmem⟩

/-- `loadPinConfiguration`, started on an empty table, accepts the first entry of each pin. -/
theorem loadPinConfiguration_extends {m : Memory} {d : Device} (h : Holds m d [])
    (pins : Option Setting) :
    ∃ r d' m' T', (loadPinConfiguration pins d).run m = .ok (r, d') m' ∧
      Extends m d [] m' d' T' ∧ records T' = acceptedPins (elemsOf pins) := by
  unfold loadPinConfiguration
  cases pins with
  | none => exact ⟨noPins, d, m, [], rfl, h.extends_refl, rfl⟩
  | some ports =>
    by_cases hlen : (elems ports).length = 0
    · have hnil : elems ports = [] := List.length_eq_zero_iff.1 hlen
      refine ⟨noPins, d, m, [], by simp only [hlen, if_true, run_pure], h.extends_refl, ?_⟩
      simp [elemsOf, hnil, acceptedPins]
    · obtain ⟨b', m', T', hrun, -, hext, hrec⟩ := foldlM_offer loadPinEntry Prod.fst
        (fun b T => b.2 = (T.length : ℤ)) pinEntryPort (by
          rintro ⟨d, i⟩ m T entry rfl h
          obtain ⟨d', m', T', hrun, hext, hoff⟩ := loadPinEntry_extends h entry
          exact ⟨(d', (T'.length : ℤ)), m', T', hrun, rfl, hext, hoff⟩)
        (elems ports) (b := (d, 0)) rfl h
      refine ⟨0, b'.1, m', T', ?_, hext, by simpa [elemsOf, acceptedPins] using hrec⟩
      simp only [hlen, if_false]
      rw [bind_of_ok hrun]
      rfl

/-- `loadPWMConfiguration` appends to any table the first entry of each pin still free. -/
theorem loadPWMConfiguration_extends {m : Memory} {d : Device} {T : List (ℕ × DevicePort)}
    (h : Holds m d T) (pwm : Option Setting) :
    ∃ r d' m' T', (loadPWMConfiguration pwm d).run m = .ok (r, d') m' ∧
      Extends m d T m' d' T' ∧
      records T' = records T ++ acceptedPwm ((records T).map DevicePort.pin) (elemsOf pwm) := by
  unfold loadPWMConfiguration
  cases pwm with
  | none => exact ⟨noPins, d, m, T, rfl, h.extends_refl, by simp [elemsOf, acceptedPwm]⟩
  | some ports =>
    by_cases hlen : (elems ports).length = 0
    · have hnil : elems ports = [] := List.length_eq_zero_iff.1 hlen
      refine ⟨noPins, d, m, T, by simp only [hlen, if_true, run_pure], h.extends_refl, ?_⟩
      simp [elemsOf, hnil, acceptedPwm]
    · obtain ⟨d', m', T', hrun, -, hext, hrec⟩ := foldlM_offer loadPWMEntry id
        (fun _ _ => True) pwmEntryPort (by
          intro d m T entry _ h
          obtain ⟨d', m', T', hrun, hext, hoff⟩ := loadPWMEntry_extends h entry
          exact ⟨d', m', T', hrun, trivial, hext, hoff⟩)
        (elems ports) (b := d) trivial h
      refine ⟨0, d', m', T', ?_, hext, by simpa [elemsOf, acceptedPwm] using hrec⟩
      simp only [hlen, if_false]
      rw [bind_of_ok hrun]
      rfl

end Loaders

end SimPokey
