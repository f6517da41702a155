import SimPokey.Startup.System
import SimPokey.Pin.DeviceLoops

/-!
# Loops on a started system

The tables of two slots are one table, or share no record (`main_tables`); with serial numbers
that differ on the network, connected slots share none.  So the loops of a started system, each on
the record in its slot, poll side by side, and every declared port has its trace (`main_polls`).
-/

namespace SimPokey

open FaultState Interleave

section Tables

variable {Setting : Type} [LibConfig Setting] {root : Setting} {junk : ℕ → DeviceJunk} {env : Env}
  {i : ℕ} {D : ℕ → Device} {ptr : ℕ → List ℕ} {w : World} {r : Site}

theorem Reaches.pointersOf (h : Reaches root junk env i D ptr w r) {t : Slot}
    (hl : t.source < (devicesOf root).length) :
    SimPokey.pointersOf (slotDevice D t) = ptr t.source := by
  obtain ⟨T, hT, hptr, -⟩ := h.holds hl
  rw [hT.pointersOf_eq, hptr]

theorem isSome_of_hasPokey {t : Slot} (h : (slotDevice D t).hasPokey = 1) :
    t.image.isSome = true := by
  cases himage : t.image with
  | none => simp [slotDevice, himage] at h
  | some image => rfl

/-- Connected slots have different sources when the serial numbers differ. -/
theorem Reaches.source_ne (h : Reaches root junk env i D ptr w r)
    (hserials : (env.network.map NetworkDeviceSummary.serialNumber).Nodup) {k k' : ℕ} {t t' : Slot}
    (ht : r.slot k = some t) (ht' : r.slot k' = some t') (hup : (slotDevice D t).hasPokey = 1)
    (hup' : (slotDevice D t').hasPokey = 1) (hne : k ≠ k') : t.source ≠ t'.source :=
  fun hsource => hne (h.explained.slot_eq hserials ht ht' (isSome_of_hasPokey hup)
    (isSome_of_hasPokey hup') hsource.symm)

end Tables

variable {Setting : Type} [LibConfig Setting]

/-- **Tables are shared as a whole or not at all.**  In every turn, two slots hold copies of one
configured device, with the same pointers, or their tables share no record; connected ones share
none when the serial numbers on the network differ. -/
theorem main_tables (root : Setting) (junk : ℕ → DeviceJunk) (simJunk : SimulatorJunk) (env : Env)
    (hzero : ∀ j, (junk j).numberOfPins = 0) (i : ℕ) (w : World)
    (hreach : ReachesTurn root junk simJunk env i w) (k k' : ℕ) (d d' : Device)
    (hd : w.devices k = some d) (hd' : w.devices k' = some d') :
    (pointersOf d = pointersOf d' ∧ d.serialNumber = d'.serialNumber ∧ d.name = d'.name ∨
      List.Disjoint (pointersOf d) (pointersOf d')) ∧
    ((env.network.map NetworkDeviceSummary.serialNumber).Nodup → d.hasPokey = 1 →
      d'.hasPokey = 1 → k ≠ k' → List.Disjoint (pointersOf d) (pointersOf d')) := by
  obtain ⟨D, ptr, r, h⟩ := hreach.reaches hzero
  obtain ⟨t, ht, rfl, hl⟩ := h.slot hd
  obtain ⟨t', ht', rfl, hl'⟩ := h.slot hd'
  rw [h.pointersOf hl, h.pointersOf hl']
  constructor
  · by_cases hsource : t.source = t'.source
    · left
      unfold slotDevice
      rw [hsource]
      exact ⟨rfl, rfl, rfl⟩
    · exact Or.inr (h.configured.apart _ hl _ hl' hsource)
  · intro hserials hup hup' hne
    exact h.configured.apart _ hl _ hl' (h.source_ne hserials ht ht' hup hup' hne)

/-- Two devices with a key each. -/
def keys : Tree :=
  Tree.file [Tree.device "17" [Tree.port 3 "DIGITAL_INPUT"] [],
    Tree.device "42" [Tree.port 4 "DIGITAL_INPUT"] []] [Tree.simulator 8091]

/-- Both are found. -/
def keysFound : Env := { Env.ofSerials [17, 42] fun _ => some (.cleared 55) with lib := .capable }

theorem main_tables_keys : ∃ d d', (final (cleanRun keys keysFound)).devices 0 = some d ∧
    (final (cleanRun keys keysFound)).devices 1 = some d' ∧
    List.Disjoint (pointersOf d) (pointersOf d') := by
  have hmain := ok_of_value (by decide +kernel : value (cleanRun keys keysFound) = some 0)
  obtain ⟨d, hd, hup⟩ := Option.map_eq_some_iff.1 (by decide +kernel :
    ((final (cleanRun keys keysFound)).devices 0).map Device.hasPokey = some 1)
  obtain ⟨d', hd', hup'⟩ := Option.map_eq_some_iff.1 (by decide +kernel :
    ((final (cleanRun keys keysFound)).devices 1).map Device.hasPokey = some 1)
  exact ⟨d, d', hd, hd', (main_tables keys (fun _ => .cleared) ⟨none, none, 0, 0⟩ keysFound
    (fun _ => rfl) _ _ (reachesTurn_of_main hmain) 0 1 d d' hd hd').2 (by decide) hup hup'
    Nat.zero_ne_one⟩

/-- The connected slots. -/
def World.connected (w : World) : Set ℕ := {k | ∃ d, w.devices k = some d ∧ d.hasPokey = 1}

/-- The loop on the record in the slot `k`, with what its reads will find. -/
def World.loopAt (w : World) (readings : ℕ → List Reading) (k : ℕ) : DeviceLoop :=
  ⟨(w.devices k).getD .cleared, readings k, none⟩

theorem World.loopAt_device {w : World} {k : ℕ} {d : Device} (h : w.devices k = some d)
    (readings : ℕ → List Reading) : (w.loopAt readings k).device = d := by
  rw [loopAt, h]
  rfl

/-- The slots `t` and tables `T` of the connected devices, which share no record. -/
structure ConnectedTables (root : Setting) (junk : ℕ → DeviceJunk) (env : Env) (i : ℕ)
    (D : ℕ → Device) (w : World) (r : Site) (t : ℕ → Slot) (T : ℕ → List (ℕ × DevicePort)) :
    Prop where
  slot : ∀ k ∈ w.connected, r.slot k = some (t k)
  device : ∀ k ∈ w.connected, w.devices k = some (slotDevice D (t k))
  image : ∀ k ∈ w.connected, (t k).image.isSome = true
  holds : ∀ k ∈ w.connected, Holds w.mem (slotDevice D (t k)) (T k)
  records : ∀ k ∈ w.connected, ∃ hl : (t k).source < (devicesOf root).length,
    SimPokey.records (T k) = (groupTable (devicesOf root)[(t k).source]).map
      (r.marked env (configuredName junk (devicesOf root)) i (t k).source)
  apart : ∀ k ∈ w.connected, ∀ k' ∈ w.connected, k ≠ k' →
    List.Disjoint ((T k).map Prod.fst) ((T k').map Prod.fst)

theorem Reaches.connectedTables {root : Setting} {junk : ℕ → DeviceJunk} {env : Env} {i : ℕ}
    {D : ℕ → Device} {ptr : ℕ → List ℕ} {w : World} {r : Site}
    (h : Reaches root junk env i D ptr w r)
    (hserials : (env.network.map NetworkDeviceSummary.serialNumber).Nodup) :
    ∃ t T, ConnectedTables root junk env i D w r t T := by
  have hslot : ∀ k ∈ w.connected, ∃ (t : Slot) (T : List (ℕ × DevicePort)),
      r.slot k = some t ∧ w.devices k = some (slotDevice D t) ∧
      (slotDevice D t).hasPokey = 1 ∧ Holds w.mem (slotDevice D t) T ∧
      T.map Prod.fst = ptr t.source ∧ ∃ hl : t.source < (devicesOf root).length,
        SimPokey.records T = (groupTable (devicesOf root)[t.source]).map
          (r.marked env (configuredName junk (devicesOf root)) i t.source) := by
    rintro k ⟨d, hd, hup⟩
    obtain ⟨t, ht, rfl, hl⟩ := h.slot hd
    obtain ⟨T, hT, hptr, hrec⟩ := h.holds hl
    exact ⟨t, T, ht, hd, hup, hT, hptr, hl, hrec⟩
  have : Nonempty Slot := ⟨⟨0, 0, none⟩⟩
  choose! t T ht hd hup hT hptr hrec using hslot
  refine ⟨t, T, ht, hd, fun k hk => isSome_of_hasPokey (hup k hk), hT, hrec,
    fun k hk k' hk' hne => ?_⟩
  obtain ⟨hl, -⟩ := hrec k hk
  obtain ⟨hl', -⟩ := hrec k' hk'
  rw [hptr k hk, hptr k' hk']
  exact h.configured.apart _ hl _ hl'
    (h.source_ne hserials (ht k hk) (ht k' hk') (hup k hk) (hup k' hk') hne)

section Connected

variable {root : Setting} {junk : ℕ → DeviceJunk} {env : Env} {i : ℕ} {D : ℕ → Device} {w : World}
  {r : Site} {t : ℕ → Slot} {T : ℕ → List (ℕ × DevicePort)}

theorem ConnectedTables.loopAt (h : ConnectedTables root junk env i D w r t T) {k : ℕ}
    (hk : k ∈ w.connected) (readings : ℕ → List Reading) :
    (w.loopAt readings k).device = slotDevice D (t k) :=
  World.loopAt_device (h.device k hk) readings

theorem ConnectedTables.length (h : ConnectedTables root junk env i D w r t T) {k : ℕ}
    (hk : k ∈ w.connected) : ∃ hl : (t k).source < (devicesOf root).length,
      (T k).length = (groupTable (devicesOf root)[(t k).source]).length := by
  obtain ⟨hl, hrecords⟩ := h.records k hk
  have hlength := congrArg List.length hrecords
  rw [SimPokey.records, List.length_map, List.length_map] at hlength
  exact ⟨hl, hlength⟩

/-- The record in a slot of a table is the declared one with its mark. -/
theorem ConnectedTables.record (h : ConnectedTables root junk env i D w r t T) {k : ℕ}
    (hk : k ∈ w.connected) (hl : (t k).source < (devicesOf root).length) (j : ℕ) :
    ((T k)[j]?).map Prod.snd = ((groupTable (devicesOf root)[(t k).source])[j]?).map
      (r.marked env (configuredName junk (devicesOf root)) i (t k).source) := by
  obtain ⟨_, hrecords⟩ := h.records k hk
  rw [← List.getElem?_map, ← List.getElem?_map, ← hrecords]

/-- What a message about a table names is declared. -/
theorem ConnectedTables.declared (h : ConnectedTables root junk env i D w r t T) {k : ℕ}
    (hk : k ∈ w.connected) (hl : (t k).source < (devicesOf root).length) {device : String}
    {e : ℕ × Message} (he : Names device (T k) e) :
    ∃ p, (groupTable (devicesOf root)[(t k).source])[e.1]? = some p ∧
      p.type = PinType.digitalInput ∧ e.2.device = device ∧ e.2.port = p.name := by
  obtain ⟨t', ht', htype, hdevice, hport⟩ := he
  have hget := h.record hk hl e.1
  rw [ht', Option.map_some, eq_comm, Option.map_eq_some_iff] at hget
  obtain ⟨p, hp, hsame⟩ := hget
  rw [← hsame, Site.marked_same] at htype hport
  exact ⟨p, hp, htype, hdevice, hport⟩

end Connected

/-- **Polling a started system.**  When no two devices on the network have the same serial number,
loops on the connected slots, once they get the records there, run under every schedule without a
fault and send nothing.  The table of a slot is the declared one of a group, with marks; at any time
all messages of its loop are about inputs the group declares, and whenever the loop is between two
callbacks every declared port has its trace of the readings the loop has taken. -/
theorem main_polls (root : Setting) (junk : ℕ → DeviceJunk) (simJunk : SimulatorJunk) (env : Env)
    (hzero : ∀ j, (junk j).numberOfPins = 0)
    (hserials : (env.network.map NetworkDeviceSummary.serialNumber).Nodup) (i : ℕ) (w : World)
    (hreach : ReachesTurn root junk simJunk env i w) (readings : ℕ → List Reading)
    (schedule : List ℕ) (hschedule : ∀ k ∈ schedule, k ∈ w.connected) :
    ∃ (loops' : ℕ → DeviceLoop) (m' : Memory) (log : List (ℕ × ℕ × Message)),
      (runLoops schedule (w.loopAt readings)).run w.mem = .ok loops' m' ∧
      m'.sent = w.mem.sent ∧ m'.messages = log.map (fun e => e.2.2) ∧
      (∀ e ∈ log, e.1 ∈ w.connected) ∧
      ∀ k d, w.devices k = some d → d.hasPokey = 1 →
        ∃ g ∈ devicesOf root, ∃ mark : DevicePort → ℤ,
          tableOf w.mem d = (groupTable g).map (fun p => some { p with valid := mark p }) ∧
          (∀ e ∈ outputOf k log, ∃ p, (groupTable g)[e.1]? = some p ∧
            p.type = PinType.digitalInput ∧ e.2.device = d.name ∧ e.2.port = p.name) ∧
          ((loops' k).locals = none → ∃ taken, readings k = taken ++ (loops' k).readings ∧
            ∀ j p, (groupTable g)[j]? = some p → ∃ q, (pointersOf d)[j]? = some q ∧
              PortTrace d.name taken m' (outputOf k log) j q { p with valid := mark p }) := by
  obtain ⟨D, ptr, r, h⟩ := hreach.reaches hzero
  obtain ⟨t, T, hc⟩ := h.connectedTables hserials
  have hholds : ∀ k ∈ w.connected, Holds w.mem (w.loopAt readings k).device (T k) :=
    fun k hk => (hc.loopAt hk readings).symm ▸ hc.holds k hk
  obtain ⟨loops', m', log, hrun, hsent, hmessages, hlog, hloops⟩ :=
    runLoops_along hholds (fun k hk => (hc.loopAt hk readings).symm ▸ hc.image k hk)
      (fun _ _ => rfl) hc.apart hschedule
  rw [h.represents.messages, List.nil_append] at hmessages
  refine ⟨loops', m', log, hrun, hsent, hmessages, hlog, fun k d hd hconnected => ?_⟩
  have hk : k ∈ w.connected := ⟨d, hd, hconnected⟩
  have hd' : d = slotDevice D (t k) := Option.some.inj (hd.symm.trans (hc.device k hk))
  obtain ⟨wk, hwk, hheap, halong, -⟩ := hloops k hk
  obtain ⟨hl, -⟩ := hc.length hk
  let mark := fun p =>
    (r.marked env (configuredName junk (devicesOf root)) i (t k).source p).valid
  refine ⟨_, List.getElem_mem hl, mark, ?_, fun e he => ?_, fun hidle => ?_⟩
  · rw [hd', h.tableOf hl, List.map_map]
    refine List.map_congr_left fun p _ => ?_
    rw [Function.comp_apply, Site.marked_same]
  · have hnames := halong.names e he
    rw [w.loopAt_device hd readings] at hnames
    exact hc.declared hk hl hnames
  · rw [← hwk] at hidle ⊢
    obtain ⟨taken, htaken, htable, hout⟩ := halong.idle hidle
    rw [w.loopAt_device hd readings] at hout
    rw [htable] at hheap
    refine ⟨taken, htaken, fun j p hp => ?_⟩
    obtain ⟨hinvalid, hvalue, hprevious⟩ := of_mem_acceptedTable (List.mem_of_getElem? hp)
    have hget := hc.record hk hl j
    rw [hp, Option.map_some, Option.map_eq_some_iff] at hget
    obtain ⟨⟨q, p'⟩, hget, hsame⟩ := hget
    have hsame : p' = { p with valid := mark p } := hsame.trans (Site.marked_same ..)
    refine ⟨q, ?_, ?_⟩
    · rw [hd', (hc.holds k hk).pointersOf_eq, List.getElem?_map, hget]
      rfl
    · rw [hout]
      exact portTrace_of_zero hheap (hsame ▸ hget) hvalue hprevious

/-- The loops of the two devices take turns. -/
theorem main_polls_keys : ∃ loops' m',
    (runLoops [0, 1, 1, 0, 0, 1] ((final (cleanRun keys keysFound)).loopAt
      fun _ => [readingOf 1])).run (final (cleanRun keys keysFound)).mem = .ok loops' m' ∧
      m'.sent = (final (cleanRun keys keysFound)).mem.sent := by
  have hmain := ok_of_value (by decide +kernel : value (cleanRun keys keysFound) = some 0)
  have hconnected : ∀ k ∈ [0, 1, 1, 0, 0, 1], k ∈ (final (cleanRun keys keysFound)).connected := by
    have hup : ∀ k ∈ [0, 1, 1, 0, 0, 1],
        ((final (cleanRun keys keysFound)).devices k).map Device.hasPokey = some 1 := by
      decide +kernel
    exact fun k hk => Option.map_eq_some_iff.1 (hup k hk)
  obtain ⟨loops', m', _, hrun, hsent, -⟩ := main_polls keys (fun _ => .cleared)
    ⟨none, none, 0, 0⟩ keysFound (fun _ => rfl) (by decide) _ _ (reachesTurn_of_main hmain)
    (fun _ => [readingOf 1]) _ hconnected
  exact ⟨loops', m', hrun, hsent⟩

end SimPokey
