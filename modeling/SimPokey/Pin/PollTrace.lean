import SimPokey.Lib.Changes
import SimPokey.Pin.PollSpec

/-!
# The levels and the messages of a port

Over a run of ticks a port sees the samples of the reads that succeeded (`samplesOf`).  A digital
input is an observer of them: it holds the last one and the level before the last change, and its
messages are the changes of the sequence (`pollDevice_trace`).
-/

namespace SimPokey

open FaultState Changes

/-- The levels found for the port by the reads that succeeded. -/
def samplesOf (p : DevicePort) (readings : List Reading) : List ℤ :=
  (readings.filter fun r => r.ret = pkOk).map fun r => r.digitalValueGet (p.pin - 1)

theorem samplesOf_cons_of_ok {r : Reading} (h : r.ret = pkOk) (p : DevicePort)
    (readings : List Reading) :
    samplesOf p (r :: readings) = r.digitalValueGet (p.pin - 1) :: samplesOf p readings := by
  simp [samplesOf, h]

theorem samplesOf_cons_of_failed {r : Reading} (h : r.ret ≠ pkOk) (p : DevicePort)
    (readings : List Reading) : samplesOf p (r :: readings) = samplesOf p readings := by
  simp [samplesOf, h]

/-! ### The record of one slot -/

/-- The record after a tick. -/
def polledPort (p : DevicePort) (r : Reading) : DevicePort :=
  if r.ret = pkOk then polled r.digitalValueGet p else p

theorem polledPort_same (p : DevicePort) (r : Reading) :
    (polledPort p r).type = p.type ∧ (polledPort p r).name = p.name := by
  unfold polledPort
  split_ifs
  · exact ⟨polled_type _ p, polled_name _ p⟩
  · exact ⟨rfl, rfl⟩

theorem foldl_polledPort_same (readings : List Reading) (p : DevicePort) :
    (readings.foldl polledPort p).type = p.type ∧ (readings.foldl polledPort p).name = p.name := by
  induction readings generalizing p with
  | nil => exact ⟨rfl, rfl⟩
  | cons r readings ih =>
    have hstep := polledPort_same p r
    exact ⟨(ih _).1.trans hstep.1, (ih _).2.trans hstep.2⟩

theorem getElem?_polledTable (T : List (ℕ × DevicePort)) (r : Reading) (i : ℕ) :
    (polledTable T r)[i]? = T[i]?.map fun t => (t.1, polledPort t.2 r) := by
  unfold polledTable polledPort
  split_ifs
  · rw [List.getElem?_map]
  · simp

theorem getElem?_foldl_polledTable (T : List (ℕ × DevicePort)) (readings : List Reading) (i : ℕ) :
    (readings.foldl polledTable T)[i]? =
      T[i]?.map fun t => (t.1, readings.foldl polledPort t.2) := by
  induction readings generalizing T with
  | nil => simp
  | cons r readings ih =>
    rw [List.foldl_cons, ih, getElem?_polledTable, Option.map_map]
    rfl

/-- A port of another type is left alone. -/
theorem foldl_polledPort_of_not_input {p : DevicePort} (h : p.type ≠ PinType.digitalInput)
    (readings : List Reading) : readings.foldl polledPort p = p := by
  induction readings with
  | nil => rfl
  | cons r readings ih =>
    have hstep : polledPort p r = p := by
      unfold polledPort
      split_ifs
      · exact polled_of_not_input h
      · rfl
    rw [List.foldl_cons, hstep, ih]

/-- The record with the levels of an observer. -/
def withLevels (p : DevicePort) (o : ℤ × ℤ) : DevicePort :=
  { p with value := o.1, previousValue := o.2 }

/-- A digital input takes over a sample as an observer does. -/
theorem polled_withLevels {p : DevicePort} (h : p.type = PinType.digitalInput) (o : ℤ × ℤ)
    (sample : ℤ → ℤ) :
    polled sample (withLevels p o) = withLevels p (track o (sample (p.pin - 1))) := by
  by_cases hs : o.1 = sample (p.pin - 1)
  · rw [polled_of_same hs, track, if_pos hs]
  · rw [polled, if_pos ⟨h, hs⟩, track, if_neg hs]
    rfl

theorem foldl_polledPort_of_input {p : DevicePort} (h : p.type = PinType.digitalInput)
    (readings : List Reading) (o : ℤ × ℤ) :
    readings.foldl polledPort (withLevels p o) =
      withLevels p ((samplesOf p readings).foldl track o) := by
  induction readings generalizing o with
  | nil => rfl
  | cons r readings ih =>
    rw [List.foldl_cons]
    by_cases hok : r.ret = pkOk
    · rw [polledPort, if_pos hok, polled_withLevels h, ih, samplesOf_cons_of_ok hok,
        List.foldl_cons]
    · rw [polledPort, if_neg hok, ih, samplesOf_cons_of_failed hok]

/-! ### The reports of one slot -/

/-- The messages reported for the slot `i`. -/
def messagesOf (i : ℕ) (reports : List (ℕ × Message)) : List Message :=
  (reports.filter fun r => r.1 = i).map Prod.snd

theorem messagesOf_append (i : ℕ) (reports reports' : List (ℕ × Message)) :
    messagesOf i (reports ++ reports') = messagesOf i reports ++ messagesOf i reports' := by
  rw [messagesOf, List.filter_append, List.map_append]
  rfl

theorem messagesOf_eq_nil {i : ℕ} {reports : List (ℕ × Message)}
    (h : ∀ r ∈ reports, r.1 ≠ i) : messagesOf i reports = [] := by
  rw [messagesOf, List.map_eq_nil_iff, List.filter_eq_nil_iff]
  intro r hr
  simpa using h r hr

theorem fst_of_mem_reportsFrom {device : String} {sample : ℤ → ℤ} {k : ℕ}
    {T : List (ℕ × DevicePort)} {r : ℕ × Message} (h : r ∈ reportsFrom device sample k T) :
    k ≤ r.1 ∧ r.1 < k + T.length := by
  obtain ⟨e, he, hr⟩ := List.mem_filterMap.1 h
  obtain ⟨msg, -, rfl⟩ := Option.map_eq_some_iff.1 hr
  obtain ⟨hle, hlt, -⟩ := List.mem_zipIdx he
  exact ⟨hle, by omega⟩

theorem messagesOf_reportsFrom (device : String) (sample : ℤ → ℤ) (k i : ℕ)
    (T : List (ℕ × DevicePort)) :
    messagesOf (k + i) (reportsFrom device sample k T) =
      T[i]?.elim [] fun t => (report device sample t.2).toList := by
  induction T generalizing k i with
  | nil => rfl
  | cons t T ih =>
    rw [reportsFrom_cons, messagesOf_append]
    cases i with
    | zero =>
      have hrest : messagesOf (k + 0) (reportsFrom device sample (k + 1) T) = [] := by
        apply messagesOf_eq_nil
        intro r hr
        have hle := (fst_of_mem_reportsFrom hr).1
        omega
      rw [hrest, List.append_nil]
      cases h : report device sample t.2 <;> simp [messagesOf, h]
    | succ i =>
      have hfirst : messagesOf (k + (i + 1))
          ((report device sample t.2).toList.map fun msg => (k, msg)) = [] := by
        apply messagesOf_eq_nil
        intro r hr
        obtain ⟨msg, -, rfl⟩ := List.mem_map.1 hr
        show k ≠ k + (i + 1)
        omega
      rw [hfirst, List.nil_append, List.getElem?_cons_succ, ← ih (k + 1) i, Nat.add_assoc,
        Nat.add_comm 1 i]

theorem messagesOf_tickReports (device : String) (T : List (ℕ × DevicePort)) (r : Reading)
    (i : ℕ) : messagesOf i (tickReports device T r) =
      if r.ret = pkOk then
        T[i]?.elim [] fun t => (report device r.digitalValueGet t.2).toList
      else [] := by
  unfold tickReports
  split_ifs
  · have hslot := messagesOf_reportsFrom device r.digitalValueGet 0 i T
    rwa [Nat.zero_add] at hslot
  · rfl

/-- The message is about the input in its slot of the table. -/
def Names (device : String) (T : List (ℕ × DevicePort)) (r : ℕ × Message) : Prop :=
  ∃ t, T[r.1]? = some t ∧ t.2.type = PinType.digitalInput ∧ r.2.device = device ∧
    r.2.port = t.2.name

theorem Names.lt {device : String} {T : List (ℕ × DevicePort)} {r : ℕ × Message}
    (h : Names device T r) : r.1 < T.length := by
  obtain ⟨t, ht, -⟩ := h
  exact (List.getElem?_eq_some_iff.1 ht).1

/-- Polling does not change what a message is about. -/
theorem Names.of_foldl {device : String} {T : List (ℕ × DevicePort)} {r : ℕ × Message}
    {readings : List Reading} (h : Names device (readings.foldl polledTable T) r) :
    Names device T r := by
  obtain ⟨t', ht', htype, hdevice, hport⟩ := h
  rw [getElem?_foldl_polledTable, Option.map_eq_some_iff] at ht'
  obtain ⟨t, ht, rfl⟩ := ht'
  obtain ⟨hsameType, hsameName⟩ := foldl_polledPort_same readings t.2
  exact ⟨t, ht, hsameType ▸ htype, hdevice, hport.trans hsameName⟩

theorem names_of_mem_reportsFrom {device : String} {sample : ℤ → ℤ} {T : List (ℕ × DevicePort)}
    {r : ℕ × Message} (h : r ∈ reportsFrom device sample 0 T) : Names device T r := by
  obtain ⟨e, he, hr⟩ := List.mem_filterMap.1 h
  obtain ⟨msg, hreport, rfl⟩ := Option.map_eq_some_iff.1 hr
  unfold report at hreport
  split_ifs at hreport with hchange
  cases hreport
  exact ⟨e.1, List.mem_zipIdx_iff_getElem?.1 he, hchange.1, rfl, rfl⟩

theorem names_of_mem_pollReports {device : String} {T : List (ℕ × DevicePort)}
    {readings : List Reading} {r : ℕ × Message} (h : r ∈ pollReports device T readings) :
    Names device T r := by
  induction readings generalizing T with
  | nil => cases h
  | cons reading readings ih =>
    rcases List.mem_append.1 h with h | h
    · unfold tickReports at h
      split_ifs at h
      · exact names_of_mem_reportsFrom h
      · cases h
    · have hpolled : Names device ([reading].foldl polledTable T) r := ih h
      exact hpolled.of_foldl

/-- The message for a change of the level of a port. -/
def changeMessage (device : String) (p : DevicePort) (c : ℤ × ℤ) : Message :=
  ⟨device, p.name, c.1, c.2⟩

theorem messagesOf_pollReports_of_not_input {device : String} {T : List (ℕ × DevicePort)} {i q : ℕ}
    {p : DevicePort} (hget : T[i]? = some (q, p)) (h : p.type ≠ PinType.digitalInput)
    (readings : List Reading) : messagesOf i (pollReports device T readings) = [] := by
  induction readings generalizing T with
  | nil => rfl
  | cons r readings ih =>
    have hnext : (polledTable T r)[i]? = some (q, p) := by
      rw [getElem?_polledTable, hget]
      exact congrArg (fun p => some (q, p)) (foldl_polledPort_of_not_input h [r])
    rw [pollReports, messagesOf_append, ih hnext, messagesOf_tickReports, hget, Option.elim_some,
      report_of_not_input h]
    split_ifs <;> rfl

/-- **The messages for a digital input are the changes of its samples.** -/
theorem messagesOf_pollReports_of_input {device : String} {T : List (ℕ × DevicePort)} {i q : ℕ}
    {p : DevicePort} (h : p.type = PinType.digitalInput) {o : ℤ × ℤ}
    (hget : T[i]? = some (q, withLevels p o)) (readings : List Reading) :
    messagesOf i (pollReports device T readings) =
      (changes o.1 (samplesOf p readings)).map (changeMessage device p) := by
  induction readings generalizing T o with
  | nil => rfl
  | cons r readings ih =>
    have hnext : (polledTable T r)[i]? = some (q, polledPort (withLevels p o) r) := by
      rw [getElem?_polledTable, hget]
      rfl
    rw [pollReports, messagesOf_append, messagesOf_tickReports, hget, Option.elim_some]
    by_cases hok : r.ret = pkOk
    · rw [polledPort, if_pos hok, polled_withLevels h] at hnext
      rw [if_pos hok, ih hnext, samplesOf_cons_of_ok hok, changes_cons, List.map_append]
      by_cases hs : o.1 = r.digitalValueGet (p.pin - 1)
      · have hsame : (withLevels p o).value = r.digitalValueGet ((withLevels p o).pin - 1) := hs
        rw [report_of_same hsame, if_pos hs, track, if_pos hs, hs]
        rfl
      · have hreport : report device r.digitalValueGet (withLevels p o) =
            some (changeMessage device p (o.1, r.digitalValueGet (p.pin - 1))) := if_pos ⟨h, hs⟩
        rw [hreport, if_neg hs, track, if_neg hs]
        rfl
    · rw [polledPort, if_neg hok] at hnext
      rw [if_neg hok, List.nil_append, ih hnext, samplesOf_cons_of_failed hok]

/-! ### The trace of a run -/

/-- What a run leaves for the record `p` of the slot `i`, kept at `q`: the record and its messages
among `reports`. -/
structure PortTrace (device : String) (readings : List Reading) (m' : Memory)
    (reports : List (ℕ × Message)) (i q : ℕ) (p : DevicePort) : Prop where
  /-- A digital input holds the last sample and the level before the last change. -/
  port : p.type = PinType.digitalInput → m'.ports[q]? = some { p with
    value := last 0 (samplesOf p readings)
    previousValue := before 0 0 (samplesOf p readings) }
  /-- Its messages are the changes of its samples. -/
  changes : p.type = PinType.digitalInput →
    messagesOf i reports = (changes 0 (samplesOf p readings)).map (changeMessage device p)
  /-- Each message starts at the level where the one before it ended. -/
  chain : (messagesOf i reports).IsChain fun msg msg' => msg.value = msg'.previousValue
  /-- For samples 0 and 1 the text of a message tells the levels. -/
  text : (∀ s ∈ samplesOf p readings, s = 0 ∨ s = 1) → ∀ msg ∈ messagesOf i reports,
    msg.previousValue = 0 ∧ msg.value = 1 ∧
        msg.text = device ++ " - " ++ p.name ++ " - " ++ "Off" ++ " --> " ++ "On" ∨
      msg.previousValue = 1 ∧ msg.value = 0 ∧
        msg.text = device ++ " - " ++ p.name ++ " - " ++ "On" ++ " --> " ++ "Off"
  /-- A port of another type is left alone. -/
  otherPort : p.type ≠ PinType.digitalInput → m'.ports[q]? = some p
  otherMessages : p.type ≠ PinType.digitalInput → messagesOf i reports = []

/-- The changes of levels 0 and 1 are told apart by their texts. -/
theorem text_changeMessage {device : String} {p : DevicePort} {l : List ℤ}
    (h : ∀ s ∈ l, s = 0 ∨ s = 1) {c : ℤ × ℤ} (hc : c ∈ Changes.changes 0 l) :
    c.1 = 0 ∧ c.2 = 1 ∧ (changeMessage device p c).text =
        device ++ " - " ++ p.name ++ " - " ++ "Off" ++ " --> " ++ "On" ∨
      c.1 = 1 ∧ c.2 = 0 ∧ (changeMessage device p c).text =
        device ++ " - " ++ p.name ++ " - " ++ "On" ++ " --> " ++ "Off" := by
  obtain ⟨old, new⟩ := c
  obtain ⟨hold, hnew, hne⟩ := of_mem_changes hc
  have hold : old = 0 ∨ old = 1 := by
    rcases List.mem_cons.1 hold with rfl | hold
    · exact .inl rfl
    · exact h _ hold
  rcases hold with rfl | rfl <;> rcases h _ hnew with hlevel | hlevel
  · exact absurd hlevel.symm hne
  · subst hlevel
    exact .inl ⟨rfl, rfl, rfl⟩
  · subst hlevel
    exact .inr ⟨rfl, rfl, rfl⟩
  · exact absurd hlevel.symm hne

/-- A port whose levels are 0 at first has the trace. -/
theorem portTrace_of_zero {T : List (ℕ × DevicePort)} {m' : Memory} {d : Device} {i q : ℕ}
    {p : DevicePort} {device : String} {readings : List Reading}
    (hholds : Holds m' d (readings.foldl polledTable T)) (hget : T[i]? = some (q, p))
    (hvalue : p.value = 0) (hprevious : p.previousValue = 0) :
    PortTrace device readings m' (pollReports device T readings) i q p := by
  have hport : m'.ports[q]? = some (readings.foldl polledPort p) := by
    apply hholds.port (q, readings.foldl polledPort p)
    apply List.mem_of_getElem? (i := i)
    rw [getElem?_foldl_polledTable, hget]
    rfl
  have hlevels : p = withLevels p (0, 0) :=
    calc p = withLevels p (p.value, p.previousValue) := rfl
      _ = withLevels p (0, 0) := by rw [hvalue, hprevious]
  by_cases hin : p.type = PinType.digitalInput
  · have hmessages : messagesOf i (pollReports device T readings) =
        (Changes.changes 0 (samplesOf p readings)).map (changeMessage device p) :=
      messagesOf_pollReports_of_input hin (hlevels ▸ hget) readings
    rw [hlevels, foldl_polledPort_of_input hin, foldl_track] at hport
    refine ⟨fun _ => hport, fun _ => hmessages, ?_, fun hlevel msg hmsg => ?_,
      fun hne => absurd hin hne, fun hne => absurd hin hne⟩
    · rw [hmessages, List.isChain_map]
      exact isChain_changes 0 (samplesOf p readings)
    · rw [hmessages] at hmsg
      obtain ⟨c, hc, rfl⟩ := List.mem_map.1 hmsg
      exact text_changeMessage hlevel hc
  · have hmessages : messagesOf i (pollReports device T readings) = [] :=
      messagesOf_pollReports_of_not_input hget hin readings
    rw [foldl_polledPort_of_not_input hin] at hport
    refine ⟨fun h => absurd h hin, fun h => absurd h hin, ?_, ?_, fun _ => hport,
      fun _ => hmessages⟩
    · rw [hmessages]
      exact List.isChain_nil
    · rw [hmessages]
      simp

/-- A tick whose read failed leaves the memory alone. -/
theorem digitalIOTimerCallback_final_of_failed (d : Device) {r : Reading} (h : r.ret ≠ pkOk)
    (m : Memory) : final ((digitalIOTimerCallback d r).run m) = m := by
  unfold digitalIOTimerCallback
  cases hpokey : d.pokey with
  | none =>
    have hrun : (pokeyOf d).run m = .error .wildPokey m := by
      simp only [pokeyOf, EStateM.run, hpokey]
    rw [bind_of_error hrun, final_error]
  | some pokey =>
    rw [bind_of_ok (pokeyOf_run hpokey m), run_ite, if_neg h]
    rfl

/-- **Polling reports exactly the changes.**  A run of ticks returns, only the levels read into the
image of the device are new, and every port has its trace; nothing is sent, no other record is
changed, all messages belong to ports, and a failed read leaves the memory as it was. -/
theorem pollDevice_trace {m : Memory} {d : Device} {T : List (ℕ × DevicePort)}
    {pokey : PoKeysDevice} (h : Holds m d T) (hpokey : d.pokey = some pokey)
    (hzero : ∀ t ∈ T, t.2.value = 0 ∧ t.2.previousValue = 0) (readings : List Reading) :
    (∃ pokey' m' reports, (pollDevice readings d).run m =
        .ok { d with pokey := some pokey' } m' ∧
      OnlyRead pokey pokey' ∧
      m'.sent = m.sent ∧
      m'.messages = m.messages ++ reports.map Prod.snd ∧
      (∀ r ∈ reports, r.1 < T.length) ∧
      m'.ports.length = m.ports.length ∧
      (∀ q, q ∉ T.map Prod.fst → m'.ports[q]? = m.ports[q]?) ∧
      ∀ i q p, T[i]? = some (q, p) → PortTrace d.name readings m' reports i q p) ∧
    ∀ r : Reading, r.ret ≠ pkOk →
      final ((pollDevice (readings ++ [r]) d).run m) = final ((pollDevice readings d).run m) := by
  obtain ⟨pokey', m', hrun, honly, hholds, hlogged⟩ := pollDevice_holds h hpokey readings
  constructor
  · refine ⟨pokey', m', pollReports d.name T readings, hrun, honly, hlogged.sent,
      hlogged.messages, fun r hr => (names_of_mem_pollReports hr).lt, hlogged.length,
      hlogged.others, fun i q p hget => ?_⟩
    obtain ⟨hvalue, hprevious⟩ := hzero (q, p) (List.mem_of_getElem? hget)
    exact portTrace_of_zero hholds hget hvalue hprevious
  · intro r hr
    have happend : (pollDevice (readings ++ [r]) d).run m =
        (digitalIOTimerCallback { d with pokey := some pokey' } r).run m' := by
      have hsplit : pollDevice (readings ++ [r]) d =
          pollDevice readings d >>= fun d' => digitalIOTimerCallback d' r := by
        simp [pollDevice]
      rw [hsplit, bind_of_ok hrun]
    rw [happend, digitalIOTimerCallback_final_of_failed _ hr, hrun, final_ok]

/-- An output and an input. -/
def lampAndKey : List DevicePort :=
  [⟨"Lamp", 3, PinType.digitalOutput, 1, 0, 0, 0, 0⟩,
    ⟨"Key", 4, PinType.digitalInput, 0, 0, 0, 0, 0⟩]

/-- A read that found the level everywhere. -/
def readingOf (level : ℤ) : Reading := ⟨pkOk, fun _ => level⟩

/-- The key goes on, is missed once, goes off, stays off, and goes on again. -/
def keyReadings : List Reading :=
  [readingOf 1, ⟨pkOk - 1, fun _ => 0⟩, readingOf 0, readingOf 0, readingOf 1]

theorem pollDevice_trace_lampAndKey :
    ∃ pokey' m' reports, (pollDevice keyReadings (deviceOf lampAndKey (.cleared 55))).run
        (memoryOf lampAndKey) = .ok { deviceOf lampAndKey (.cleared 55) with
          pokey := some pokey' } m' ∧
      m'.messages = reports.map Prod.snd ∧
      m'.ports[0]? = some ⟨"Lamp", 3, PinType.digitalOutput, 1, 0, 0, 0, 0⟩ ∧
      messagesOf 0 reports = [] ∧
      m'.ports[1]? = some ⟨"Key", 4, PinType.digitalInput, 0, 0, 1, 0, 0⟩ ∧
      messagesOf 1 reports = [⟨"", "Key", 0, 1⟩, ⟨"", "Key", 1, 0⟩, ⟨"", "Key", 0, 1⟩] := by
  obtain ⟨⟨pokey', m', reports, hrun, -, -, hmessages, -, -, -, htrace⟩, -⟩ :=
    pollDevice_trace (holds_deviceOf lampAndKey (.cleared 55)) rfl (by decide) keyReadings
  have hlamp := htrace 0 0 ⟨"Lamp", 3, PinType.digitalOutput, 1, 0, 0, 0, 0⟩ rfl
  have hkey := htrace 1 1 ⟨"Key", 4, PinType.digitalInput, 0, 0, 0, 0, 0⟩ rfl
  refine ⟨pokey', m', reports, hrun, hmessages, ?_, ?_, ?_, ?_⟩
  · exact hlamp.otherPort (by decide)
  · exact hlamp.otherMessages (by decide)
  · exact hkey.port rfl
  · exact hkey.changes rfl

end SimPokey
