import SimPokey.Pin.Frames
import SimPokey.Pin.Validate

/-!
# What polling does to a table

A tick of `digitalIOTimerCallback` whose read succeeded takes the new level of every digital input
whose level changed (`polled`), valid or not, and logs one message for each of them
(`tickReports`).  `pollDevice_holds` says what a run of ticks leaves: the polled table, the
messages, and nothing else.
-/

namespace SimPokey

open FaultState

/-! ### One record -/

/-- The record after a read that found the levels `sample`. -/
def polled (sample : ℤ → ℤ) (p : DevicePort) : DevicePort :=
  if p.type = PinType.digitalInput ∧ p.value ≠ sample (p.pin - 1) then
    { p with previousValue := p.value, value := sample (p.pin - 1) }
  else p

/-- The message for the record, if its level changed; `device` is the name of the device. -/
def report (device : String) (sample : ℤ → ℤ) (p : DevicePort) : Option Message :=
  if p.type = PinType.digitalInput ∧ p.value ≠ sample (p.pin - 1) then
    some ⟨device, p.name, p.value, sample (p.pin - 1)⟩
  else none

@[simp] theorem polled_name (sample : ℤ → ℤ) (p : DevicePort) :
    (polled sample p).name = p.name := by
  unfold polled
  split_ifs <;> rfl

@[simp] theorem polled_pin (sample : ℤ → ℤ) (p : DevicePort) :
    (polled sample p).pin = p.pin := by
  unfold polled
  split_ifs <;> rfl

@[simp] theorem polled_type (sample : ℤ → ℤ) (p : DevicePort) :
    (polled sample p).type = p.type := by
  unfold polled
  split_ifs <;> rfl

theorem polled_of_not_input {sample : ℤ → ℤ} {p : DevicePort}
    (h : p.type ≠ PinType.digitalInput) : polled sample p = p := if_neg fun hp => h hp.1

theorem polled_of_same {sample : ℤ → ℤ} {p : DevicePort} (h : p.value = sample (p.pin - 1)) :
    polled sample p = p := if_neg fun hp => hp.2 h

theorem report_of_not_input {device : String} {sample : ℤ → ℤ} {p : DevicePort}
    (h : p.type ≠ PinType.digitalInput) : report device sample p = none := if_neg fun hp => h hp.1

theorem report_of_same {device : String} {sample : ℤ → ℤ} {p : DevicePort}
    (h : p.value = sample (p.pin - 1)) : report device sample p = none := if_neg fun hp => hp.2 h

/-- The memories of a loop that logs `new` and rewrites records of `T` only. -/
structure Logged (T : List (ℕ × DevicePort)) (m m' : Memory) (new : List Message) : Prop where
  length : m'.ports.length = m.ports.length
  others : ∀ q, q ∉ T.map Prod.fst → m'.ports[q]? = m.ports[q]?
  sent : m'.sent = m.sent
  messages : m'.messages = m.messages ++ new

theorem Logged.refl (T : List (ℕ × DevicePort)) (m : Memory) : Logged T m m [] :=
  ⟨rfl, fun _ _ => rfl, rfl, (List.append_nil _).symm⟩

theorem Logged.trans {T T' : List (ℕ × DevicePort)} {m m' m'' : Memory} {new new' : List Message}
    (h : Logged T m m' new) (hT : T'.map Prod.fst = T.map Prod.fst) (h' : Logged T' m' m'' new') :
    Logged T m m'' (new ++ new') where
  length := h'.length.trans h.length
  others := fun q hq => (h'.others q (hT ▸ hq)).trans (h.others q hq)
  sent := h'.sent.trans h.sent
  messages := by rw [h'.messages, h.messages, List.append_assoc]

/-- One turn: the record in its slot becomes the polled one, and its change is logged. -/
theorem pollSlot_holds {m : Memory} {d : Device} {T pre post : List (ℕ × DevicePort)}
    {t : ℕ × DevicePort} (h : Holds m d (pre ++ t :: post))
    (hT : T.map Prod.fst = (pre ++ t :: post).map Prod.fst) (pokey : PoKeysDevice) :
    ∃ m', (pollSlot d pokey pre.length).run m = .ok () m' ∧
      Holds m' d (pre ++ (t.1, polled (fun k => (pokey.pins k).digitalValueGet) t.2) :: post) ∧
      Logged T m m' (report d.name (fun k => (pokey.pins k).digitalValueGet) t.2).toList := by
  have hread := portAt_of_holds h (i := pre.length) (t := t) (by simp)
  unfold pollSlot
  rw [bind_of_ok hread]
  by_cases hin : t.2.type = PinType.digitalInput
  · simp only [if_neg (not_not.2 hin)]
    rw [bind_of_ok (touch_run _ _)]
    by_cases hsame : t.2.value = (pokey.pins (t.2.pin - 1)).digitalValueGet
    · rw [run_ite, if_neg (not_not.2 hsame), polled_of_same hsame, report_of_same hsame]
      exact ⟨_, rfl, h.mono (List.prefix_refl _), rfl, fun _ _ => rfl, rfl,
        (List.append_nil _).symm⟩
    · rw [run_ite, if_pos hsame, polled, if_pos ⟨hin, hsame⟩, report, if_pos ⟨hin, hsame⟩]
      refine ⟨_, rfl, (h.write _).mono (List.prefix_refl _), List.length_set .., ?_, rfl, rfl⟩
      intro q hq
      have hne : t.1 ≠ q := by
        rintro rfl
        rw [hT] at hq
        simp at hq
      exact List.getElem?_set_ne hne
  · simp only [if_pos hin]
    rw [polled_of_not_input hin, report_of_not_input hin]
    exact ⟨_, rfl, h.mono (List.prefix_refl _), rfl, fun _ _ => rfl, rfl,
      (List.append_nil _).symm⟩

/-! ### Ticks -/

/-- The table after a tick. -/
def polledTable (T : List (ℕ × DevicePort)) (reading : Reading) : List (ℕ × DevicePort) :=
  if reading.ret = pkOk then T.map fun t => (t.1, polled reading.digitalValueGet t.2) else T

theorem polledTable_map_fst (T : List (ℕ × DevicePort)) (reading : Reading) :
    (polledTable T reading).map Prod.fst = T.map Prod.fst := by
  unfold polledTable
  split_ifs
  · rw [List.map_map]
    rfl
  · rfl

/-- What the turns for the records `T`, found in the slots from `k` on, report, each with its
slot. -/
def reportsFrom (device : String) (sample : ℤ → ℤ) (k : ℕ) (T : List (ℕ × DevicePort)) :
    List (ℕ × Message) :=
  (T.zipIdx k).filterMap fun e => (report device sample e.1.2).map fun msg => (e.2, msg)

/-- What a tick reports. -/
def tickReports (device : String) (T : List (ℕ × DevicePort)) (reading : Reading) :
    List (ℕ × Message) :=
  if reading.ret = pkOk then reportsFrom device reading.digitalValueGet 0 T else []

/-- What a run of ticks reports. -/
def pollReports (device : String) (T : List (ℕ × DevicePort)) : List Reading → List (ℕ × Message)
  | [] => []
  | reading :: readings =>
      tickReports device T reading ++ pollReports device (polledTable T reading) readings

theorem reportsFrom_cons (device : String) (sample : ℤ → ℤ) (k : ℕ) (t : ℕ × DevicePort)
    (T : List (ℕ × DevicePort)) :
    reportsFrom device sample k (t :: T) =
      (report device sample t.2).toList.map (fun msg => (k, msg)) ++
        reportsFrom device sample (k + 1) T := by
  rw [reportsFrom, List.zipIdx_cons, List.filterMap_cons]
  cases report device sample t.2 <;> rfl

theorem reportsFrom_concat (device : String) (sample : ℤ → ℤ) (k : ℕ)
    (T : List (ℕ × DevicePort)) (t : ℕ × DevicePort) :
    (reportsFrom device sample k (T ++ [t])).map Prod.snd =
      (reportsFrom device sample k T).map Prod.snd ++ (report device sample t.2).toList := by
  induction T generalizing k with
  | nil =>
    rw [List.nil_append, reportsFrom_cons]
    cases report device sample t.2 <;> rfl
  | cons u T ih =>
    rw [List.cons_append, reportsFrom_cons, List.map_append, ih, reportsFrom_cons,
      List.map_append, List.append_assoc]

/-- Only the levels that were read are new in the image. -/
def OnlyRead (pokey pokey' : PoKeysDevice) : Prop :=
  ∃ levels : ℤ → ℤ, pokey' = { pokey with
    pins := fun k => { pokey.pins k with digitalValueGet := levels k } }

theorem OnlyRead.refl (pokey : PoKeysDevice) : OnlyRead pokey pokey :=
  ⟨fun k => (pokey.pins k).digitalValueGet, rfl⟩

theorem OnlyRead.trans {pokey pokey' pokey'' : PoKeysDevice} (h : OnlyRead pokey pokey')
    (h' : OnlyRead pokey' pokey'') : OnlyRead pokey pokey'' := by
  obtain ⟨levels, rfl⟩ := h
  obtain ⟨levels', rfl⟩ := h'
  exact ⟨levels', rfl⟩

/-- **A tick on a table** returns, the table is the polled one, and the reports are logged. -/
theorem digitalIOTimerCallback_holds {m : Memory} {d : Device} {T : List (ℕ × DevicePort)}
    {pokey : PoKeysDevice} (h : Holds m d T) (hpokey : d.pokey = some pokey) (reading : Reading) :
    ∃ pokey' m', (digitalIOTimerCallback d reading).run m =
        .ok { d with pokey := some pokey' } m' ∧ OnlyRead pokey pokey' ∧
      Holds m' { d with pokey := some pokey' } (polledTable T reading) ∧
      Logged T m m' ((tickReports d.name T reading).map Prod.snd) := by
  let image : PoKeysDevice :=
    { pokey with
      pins := fun k => { pokey.pins k with digitalValueGet := reading.digitalValueGet k } }
  unfold digitalIOTimerCallback
  rw [bind_of_ok (pokeyOf_run hpokey m)]
  by_cases hok : reading.ret = pkOk
  · -- after `k` turns the reports of the first `k` records are logged
    obtain ⟨m', hrun, hholds, hlogged⟩ := h.foldlM_rewrite (pollSlot d image)
      (polled reading.digitalValueGet)
      (fun k m' => Logged T m m'
        ((reportsFrom d.name reading.digitalValueGet 0 (T.take k)).map Prod.snd))
      (Logged.refl T m) (by
        intro pre t post m₁ hget hT hpre hI
        obtain ⟨m₂, hrun, hholds, hlogged⟩ := pollSlot_holds hpre hT image
        refine ⟨m₂, hrun, hholds, ?_⟩
        obtain ⟨hlt, ht⟩ := List.getElem?_eq_some_iff.1 hget
        rw [← List.take_concat_get' T pre.length hlt, ht, reportsFrom_concat]
        exact hI.trans rfl hlogged)
    rw [List.take_length] at hlogged
    refine ⟨image, m', ?_, ⟨_, rfl⟩, ?_, ?_⟩
    · simp only [if_pos hok, h.count, Int.toNat_natCast]
      rw [bind_of_ok hrun]
      rfl
    · rw [polledTable, if_pos hok]
      exact hholds.withPokey _ d.hasPokey
    · rw [tickReports, if_pos hok]
      exact hlogged
  · refine ⟨image, m, ?_, ⟨_, rfl⟩, ?_, ?_⟩
    · simp only [if_neg hok]
      rfl
    · rw [polledTable, if_neg hok]
      exact h.withPokey _ d.hasPokey
    · rw [tickReports, if_neg hok]
      exact Logged.refl T m

/-- **A run of ticks** returns, the table has been polled once for each reading, in order, and the
reports are logged. -/
theorem pollDevice_holds {m : Memory} {d : Device} {T : List (ℕ × DevicePort)}
    {pokey : PoKeysDevice} (h : Holds m d T) (hpokey : d.pokey = some pokey)
    (readings : List Reading) :
    ∃ pokey' m', (pollDevice readings d).run m = .ok { d with pokey := some pokey' } m' ∧
      OnlyRead pokey pokey' ∧
      Holds m' { d with pokey := some pokey' } (readings.foldl polledTable T) ∧
      Logged T m m' ((pollReports d.name T readings).map Prod.snd) := by
  induction readings generalizing m d T pokey with
  | nil =>
    have hd : d = { d with pokey := some pokey } := by rw [← hpokey]
    exact ⟨pokey, m, by rw [← hd]; rfl, .refl pokey, hd ▸ h, Logged.refl T m⟩
  | cons reading readings ih =>
    obtain ⟨pokey₁, m₁, hrun, honly, hholds, hlogged⟩ :=
      digitalIOTimerCallback_holds h hpokey reading
    obtain ⟨pokey₂, m₂, hrest, honly₂, hholds₂, hlogged₂⟩ := ih hholds rfl
    refine ⟨pokey₂, m₂, ?_, honly.trans honly₂, hholds₂, ?_⟩
    · rw [pollDevice, foldlM_cons_of_ok hrun]
      exact hrest
    · rw [pollReports, List.map_append]
      exact hlogged.trans (polledTable_map_fst T reading) hlogged₂

end SimPokey
