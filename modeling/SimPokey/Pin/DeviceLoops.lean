import SimPokey.Lib.Interleave
import SimPokey.Pin.PollTrace

/-!
# Device loops side by side

Each device is polled by a loop in a thread of its own, and the threads run at any speed.  A loop
moves in small steps (`DeviceLoop.step`): a read, one turn of the `for` of the callback for one
slot, or the end of a callback.  The records all live in one heap, and a schedule says which loop
moves next (`runLoops`).

A `Watch` is a loop with a table of its own.  On devices whose tables share no record, the loops in
the heap do what the watches do (`runLoops_watches`), and those share nothing.  So each loop leaves
in its records, and logs, what `pollDevice` would with the heap to itself (`runLoops_alone`).
-/

namespace SimPokey

open FaultState Interleave

/-! ### Loops in one heap -/

/-- The loop of a device: what its reads will find, and the locals `pokey` and `i` of
`digitalIOTimerCallback` while that iterates over the pins. -/
structure DeviceLoop where
  device : Device
  readings : List Reading
  locals : Option (PoKeysDevice × ℕ)

/-- The image after `PK_DigitalIOGet`. -/
def digitalIOGet (pokey : PoKeysDevice) (reading : Reading) : PoKeysDevice :=
  { pokey with pins := fun k =>
      { pokey.pins k with digitalValueGet := reading.digitalValueGet k } }

/-- What the loop does next. -/
def DeviceLoop.step (l : DeviceLoop) : MemRun DeviceLoop :=
  match l.locals with
  | none =>
      match l.readings with
      | [] => pure l
      | reading :: readings => do
          let pokey ← pokeyOf l.device
          let pokey := digitalIOGet pokey reading
          pure ⟨{ l.device with pokey := some pokey }, readings,
            if reading.ret = pkOk then some (pokey, 0) else none⟩
  | some (pokey, i) =>
      if (i : ℤ) < l.device.numberOfPins then do
        pollSlot l.device pokey i
        pure { l with locals := some (pokey, i + 1) }
      else pure { l with locals := none }

/-- The loops move in the order of the schedule. -/
def runLoops (schedule : List ℕ) (loops : ℕ → DeviceLoop) : MemRun (ℕ → DeviceLoop) :=
  schedule.foldlM (fun loops k => do
    let l ← (loops k).step
    pure (Function.update loops k l)) loops

/-! ### Watches -/

/-- A loop with a table of its own. -/
structure Watch where
  loop : DeviceLoop
  table : List (ℕ × DevicePort)

/-- The levels an image holds. -/
def levelsOf (pokey : PoKeysDevice) (k : ℤ) : ℤ := (pokey.pins k).digitalValueGet

/-- What the loop does next, and what it logs, with the slot. -/
def Watch.next (w : Watch) : Watch × List (ℕ × Message) :=
  match w.loop.locals with
  | none =>
      match w.loop.readings, w.loop.device.pokey with
      | reading :: readings, some pokey =>
          let pokey := digitalIOGet pokey reading
          (⟨⟨{ w.loop.device with pokey := some pokey }, readings,
            if reading.ret = pkOk then some (pokey, 0) else none⟩, w.table⟩, [])
      | _, _ => (w, [])
  | some (pokey, i) =>
      match w.table[i]? with
      | some t =>
          (⟨{ w.loop with locals := some (pokey, i + 1) },
            w.table.set i (t.1, polled (levelsOf pokey) t.2)⟩,
            (report w.loop.device.name (levelsOf pokey) t.2).toList.map fun msg => (i, msg))
      | none => (⟨{ w.loop with locals := none }, w.table⟩, [])

/-- The heap `m` holds the table of the watch. -/
structure Watch.In (m : Memory) (w : Watch) : Prop where
  holds : Holds m w.loop.device w.table
  image : w.loop.device.pokey.isSome = true

/-- A step in the heap is the step of the watch. -/
theorem Watch.In.step {m : Memory} {w : Watch} (h : w.In m) :
    ∃ m', w.loop.step.run m = .ok w.next.1.loop m' ∧ w.next.1.In m' ∧
      w.next.1.table.map Prod.fst = w.table.map Prod.fst ∧
        Logged w.table m m' (w.next.2.map Prod.snd) := by
  obtain ⟨⟨device, readings, locals⟩, T⟩ := w
  obtain ⟨pokey, hpokey⟩ := Option.isSome_iff_exists.1 h.image
  have hholds : Holds m device T := h.holds
  change device.pokey = some pokey at hpokey
  unfold DeviceLoop.step Watch.next
  cases locals with
  | none =>
    cases readings with
    | nil => exact ⟨m, rfl, h, rfl, Logged.refl T m⟩
    | cons reading readings =>
      simp only [hpokey, true_and]
      rw [bind_of_ok (pokeyOf_run hpokey m)]
      exact ⟨m, rfl, ⟨hholds.withPokey _ device.hasPokey, rfl⟩, Logged.refl T m⟩
  | some local_ =>
    obtain ⟨image, i⟩ := local_
    dsimp only
    cases hget : T[i]? with
    | none =>
      have hle : T.length ≤ i := List.getElem?_eq_none_iff.1 hget
      have hend : ¬ (i : ℤ) < device.numberOfPins := by rw [hholds.count]; omega
      rw [if_neg hend]
      exact ⟨m, rfl, ⟨hholds, h.image⟩, rfl, Logged.refl T m⟩
    | some t =>
      obtain ⟨hlt, ht⟩ := List.getElem?_eq_some_iff.1 hget
      have hturn : (i : ℤ) < device.numberOfPins := by rw [hholds.count]; omega
      have hT : T = T.take i ++ t :: T.drop (i + 1) := by
        rw [← ht, List.getElem_cons_drop, List.take_append_drop]
      have hlen : (T.take i).length = i := List.length_take_of_le hlt.le
      obtain ⟨m', hrun, hholds', hlogged⟩ := pollSlot_holds (hT ▸ hholds)
        (congrArg (List.map Prod.fst) hT) image
      rw [hlen] at hrun
      rw [if_pos hturn, bind_of_ok hrun]
      have hset : T.set i (t.1, polled (levelsOf image) t.2) =
          T.take i ++ (t.1, polled (levelsOf image) t.2) :: T.drop (i + 1) := by
        rw [List.set_eq_take_append_cons_drop, if_pos hlt]
      refine ⟨m', rfl, ⟨?_, h.image⟩, ?_, ?_⟩
      · show Holds m' device (T.set i _)
        rw [hset]
        exact hholds'
      · show (T.set i _).map Prod.fst = T.map Prod.fst
        rw [hset]
        conv_rhs => rw [hT]
        simp
      · show Logged T m m' (List.map Prod.snd (List.map _ _))
        rw [List.map_map]
        exact (List.map_id' _).symm ▸ hlogged

/-! ### All loops -/

/-- The heap `m` holds the tables of the watches `K`, and no two of them share a record. -/
structure Watches (K : Set ℕ) (m : Memory) (ws : ℕ → Watch) : Prop where
  inHeap : ∀ k ∈ K, (ws k).In m
  apart : ∀ k ∈ K, ∀ k' ∈ K, k ≠ k' →
    List.Disjoint ((ws k).table.map Prod.fst) ((ws k').table.map Prod.fst)

/-- A table whose records were left alone. -/
theorem Holds.of_same {m m' : Memory} {d : Device} {T : List (ℕ × DevicePort)} (h : Holds m d T)
    (hsame : ∀ q ∈ T.map Prod.fst, m'.ports[q]? = m.ports[q]?) : Holds m' d T where
  count := h.count
  slot := h.slot
  port := fun t ht => (hsame t.1 (List.mem_map_of_mem ht)).trans (h.port t ht)
  nodup := h.nodup

/-- Two heaps with the same table have the same records there. -/
theorem Holds.ports_eq {m m' : Memory} {d d' : Device} {T : List (ℕ × DevicePort)}
    (h : Holds m d T) (h' : Holds m' d' T) {q : ℕ} (hq : q ∈ T.map Prod.fst) :
    m.ports[q]? = m'.ports[q]? := by
  obtain ⟨t, ht, rfl⟩ := List.mem_map.1 hq
  rw [h.port t ht, h'.port t ht]

/-- A step of one loop leaves the other tables alone. -/
theorem Watches.step {K : Set ℕ} {m : Memory} {ws : ℕ → Watch} (h : Watches K m ws) {k : ℕ}
    (hk : k ∈ K) : ∃ m', (ws k).loop.step.run m = .ok (ws k).next.1.loop m' ∧
      Watches K m' (Function.update ws k (ws k).next.1) ∧
      Logged (ws k).table m m' ((ws k).next.2.map Prod.snd) := by
  obtain ⟨m', hrun, hin, hpointers, hlogged⟩ := (h.inHeap k hk).step
  have htable : ∀ j, (Function.update ws k (ws k).next.1 j).table.map Prod.fst =
      (ws j).table.map Prod.fst := by
    intro j
    by_cases hj : j = k
    · rw [hj, Function.update_self]
      exact hpointers
    · rw [Function.update_of_ne hj]
  refine ⟨m', hrun, ⟨fun j hj => ?_, fun j hj j' hj' hne => ?_⟩, hlogged⟩
  · by_cases hjk : j = k
    · rw [hjk, Function.update_self]
      exact hin
    · rw [Function.update_of_ne hjk]
      refine ⟨(h.inHeap j hj).holds.of_same fun q hq => hlogged.others q ?_, (h.inHeap j hj).image⟩
      exact h.apart j hj k hk hjk hq
  · rw [htable, htable]
    exact h.apart j hj j' hj' hne

/-- **The loops in the heap do what the watches do.** -/
theorem Watches.run {K : Set ℕ} {m : Memory} {ws : ℕ → Watch} (h : Watches K m ws)
    {schedule : List ℕ} (hschedule : ∀ k ∈ schedule, k ∈ K) :
    ∃ m', (runLoops schedule fun k => (ws k).loop).run m =
        .ok (fun k => ((Interleave.run Watch.next schedule ws).1 k).loop) m' ∧
      Watches K m' (Interleave.run Watch.next schedule ws).1 ∧ m'.sent = m.sent ∧
      m'.messages = m.messages ++
        (Interleave.run Watch.next schedule ws).2.map fun e => e.2.2 := by
  obtain ⟨loops, m', hrun, hloops, hrest⟩ := foldlM_total
    (fun done loops m' => loops = (fun k => ((Interleave.run Watch.next done ws).1 k).loop) ∧
      Watches K m' (Interleave.run Watch.next done ws).1 ∧ m'.sent = m.sent ∧
      m'.messages = m.messages ++ (Interleave.run Watch.next done ws).2.map fun e => e.2.2)
    (f := fun loops k => do
      let l ← (loops k).step
      pure (Function.update loops k l)) (l := schedule) (b := fun k => (ws k).loop) (s := m)
    ⟨rfl, h, rfl, (List.append_nil _).symm⟩ (by
      rintro done k rest loops m₁ hsplit ⟨rfl, hwatches, hsent, hmessages⟩
      have hk : k ∈ K := hschedule k (by rw [hsplit]; simp)
      obtain ⟨m₂, hstep, hwatches₂, hlogged⟩ := hwatches.step hk
      refine ⟨_, m₂, bind_of_ok hstep, ?_, ?_, hlogged.sent.trans hsent, ?_⟩
      · funext j
        rw [run_concat]
        simp only [move]
        by_cases hj : j = k
        · subst hj
          rw [Function.update_self, Function.update_self]
        · rw [Function.update_of_ne hj, Function.update_of_ne hj]
      · rw [run_concat]
        exact hwatches₂
      · rw [run_concat, move, hlogged.messages, hmessages, List.map_append, List.append_assoc,
          List.map_map]
        rfl)
  rw [hloops] at hrun
  exact ⟨m', hrun, hrest⟩

/-! ### One loop -/

theorem pollReports_concat (device : String) (T : List (ℕ × DevicePort)) (readings : List Reading)
    (reading : Reading) : pollReports device T (readings ++ [reading]) =
      pollReports device T readings ++
        tickReports device (readings.foldl polledTable T) reading := by
  induction readings generalizing T with
  | nil => exact List.append_nil _
  | cons r readings ih =>
    rw [List.cons_append, pollReports, pollReports, ih, List.append_assoc]
    rfl

theorem reportsFrom_append (device : String) (sample : ℤ → ℤ) (k : ℕ)
    (T : List (ℕ × DevicePort)) (t : ℕ × DevicePort) :
    reportsFrom device sample k (T ++ [t]) = reportsFrom device sample k T ++
      (report device sample t.2).toList.map fun msg => (k + T.length, msg) := by
  induction T generalizing k with
  | nil =>
    rw [List.nil_append, reportsFrom_cons]
    exact List.append_nil _
  | cons u T ih =>
    rw [List.cons_append, reportsFrom_cons, ih, reportsFrom_cons, List.append_assoc,
      List.length_cons, Nat.add_assoc, Nat.add_comm 1 T.length]

theorem foldl_polledTable_map_fst (readings : List Reading) (T : List (ℕ × DevicePort)) :
    (readings.foldl polledTable T).map Prod.fst = T.map Prod.fst := by
  induction readings generalizing T with
  | nil => rfl
  | cons reading readings ih => exact (ih _).trans (polledTable_map_fst T reading)

/-- What a loop on the device `d` with the table `T` and the readings to come may have come to, and
what it has logged so far. -/
inductive Along (d : Device) (T : List (ℕ × DevicePort)) (readings : List Reading) :
    Watch → List (ℕ × Message) → Prop
  /-- Between two callbacks. -/
  | between (taken rest : List Reading) (pokey : PoKeysDevice) (h : readings = taken ++ rest) :
      Along d T readings
        ⟨⟨{ d with pokey := some pokey }, rest, none⟩, taken.foldl polledTable T⟩
        (pollReports d.name T taken)
  /-- Within a callback, which has done with the slots of `pre`. -/
  | within (taken rest : List Reading) (reading : Reading) (pokey : PoKeysDevice)
      (pre post : List (ℕ × DevicePort)) (h : readings = taken ++ reading :: rest)
      (hok : reading.ret = pkOk) (hT : taken.foldl polledTable T = pre ++ post) :
      Along d T readings
        ⟨⟨{ d with pokey := some (digitalIOGet pokey reading) }, rest,
            some (digitalIOGet pokey reading, pre.length)⟩,
          pre.map (fun t => (t.1, polled reading.digitalValueGet t.2)) ++ post⟩
        (pollReports d.name T taken ++ reportsFrom d.name reading.digitalValueGet 0 pre)

theorem Along.next {d : Device} {T : List (ℕ × DevicePort)} {readings : List Reading} {w : Watch}
    {out : List (ℕ × Message)} (h : Along d T readings w out) :
    Along d T readings w.next.1 (out ++ w.next.2) := by
  cases h with
  | between taken rest pokey h =>
    cases rest with
    | nil =>
      rw [show Watch.next _ = (_, []) from rfl, List.append_nil]
      exact .between taken [] pokey h
    | cons reading rest =>
      have htaken : readings = (taken ++ [reading]) ++ rest := by
        rw [List.append_assoc, List.singleton_append, h]
      by_cases hok : reading.ret = pkOk
      · have hwithin := Along.within (d := d) (T := T) taken rest reading pokey [] _ h hok rfl
        rw [show reportsFrom d.name reading.digitalValueGet 0 [] = [] from rfl] at hwithin
        unfold Watch.next
        simp only [if_pos hok]
        exact hwithin
      · have hbetween := Along.between (d := d) (T := T) _ rest (digitalIOGet pokey reading) htaken
        rw [pollReports_concat, tickReports, if_neg hok, List.foldl_concat, polledTable,
          if_neg hok] at hbetween
        unfold Watch.next
        simp only [if_neg hok]
        exact hbetween
  | within taken rest reading pokey pre post h hok hT =>
    cases post with
    | nil =>
      have htaken : readings = (taken ++ [reading]) ++ rest := by
        rw [List.append_assoc, List.singleton_append, h]
      have hbetween := Along.between (d := d) (T := T) _ rest (digitalIOGet pokey reading) htaken
      rw [pollReports_concat, tickReports, if_pos hok, List.foldl_concat, polledTable,
        if_pos hok, hT, List.append_nil] at hbetween
      have hend : (pre.map fun t => (t.1, polled reading.digitalValueGet t.2))[pre.length]? =
          none := List.getElem?_eq_none (by rw [List.length_map])
      unfold Watch.next
      simp only [List.append_nil, hend]
      exact hbetween
    | cons t post =>
      have hwithin := Along.within (d := d) taken rest reading pokey (pre ++ [t]) post h hok
        (by rw [hT, List.append_assoc, List.singleton_append])
      rw [reportsFrom_append, Nat.zero_add, ← List.append_assoc, List.length_append,
        List.map_append, List.append_assoc (List.map _ pre)] at hwithin
      have hget : ((pre.map fun t => (t.1, polled reading.digitalValueGet t.2)) ++
          t :: post)[pre.length]? = some t := by
        rw [List.getElem?_append_right (by rw [List.length_map]), List.length_map, Nat.sub_self]
        rfl
      have hset : ((pre.map fun t => (t.1, polled reading.digitalValueGet t.2)) ++
          t :: post).set pre.length (t.1, polled reading.digitalValueGet t.2) =
          (pre.map fun t => (t.1, polled reading.digitalValueGet t.2)) ++
            (t.1, polled reading.digitalValueGet t.2) :: post := by
        rw [List.set_append_right _ _ (by rw [List.length_map]), List.length_map, Nat.sub_self]
        rfl
      unfold Watch.next
      simp only [hget]
      rw [show levelsOf (digitalIOGet pokey reading) = reading.digitalValueGet from rfl, hset]
      exact hwithin

theorem Along.image {d : Device} {T : List (ℕ × DevicePort)} {readings : List Reading} {w : Watch}
    {out : List (ℕ × Message)} (h : Along d T readings w out) :
    w.loop.device.pokey.isSome = true := by
  cases h <;> rfl

theorem Along.locals_le {d : Device} {T : List (ℕ × DevicePort)} {readings : List Reading}
    {w : Watch} {out : List (ℕ × Message)} (h : Along d T readings w out) {pokey : PoKeysDevice}
    {i : ℕ} (hi : w.loop.locals = some (pokey, i)) : i ≤ w.table.length := by
  cases h with
  | between => cases hi
  | within taken rest reading pokey pre post h hok hT =>
    cases hi
    simp

/-- Every step keeps a loop along. -/
theorem along_alone {d : Device} {T : List (ℕ × DevicePort)} {pokey : PoKeysDevice}
    (hpokey : d.pokey = some pokey) (readings : List Reading) (c : ℕ) :
    Along d T readings (alone Watch.next ⟨⟨d, readings, none⟩, T⟩ c).1
      (alone Watch.next ⟨⟨d, readings, none⟩, T⟩ c).2 := by
  induction c with
  | zero =>
    have hstart := Along.between (d := d) (T := T) [] readings pokey rfl
    rwa [← hpokey] at hstart
  | succ c ih => exact ih.next

/-- A bound on the steps left. -/
def Watch.left (w : Watch) : ℕ :=
  w.loop.readings.length * (w.table.length + 2) +
    w.loop.locals.elim 0 fun c => w.table.length + 1 - c.2

theorem Watch.left_next {w : Watch} (h : w.loop.device.pokey.isSome = true)
    (hle : ∀ pokey i, w.loop.locals = some (pokey, i) → i ≤ w.table.length) :
    w.next.1.left ≤ w.left - 1 := by
  obtain ⟨⟨device, readings, locals⟩, T⟩ := w
  obtain ⟨pokey, hpokey⟩ := Option.isSome_iff_exists.1 h
  change device.pokey = some pokey at hpokey
  unfold Watch.next Watch.left
  cases locals with
  | none =>
    cases readings with
    | nil => simp
    | cons reading readings =>
      simp only [hpokey, List.length_cons, Nat.add_mul, Nat.one_mul, Option.elim_none]
      split_ifs
      · simp only [Option.elim_some]
        omega
      · simp only [Option.elim_none]
        omega
  | some c =>
    obtain ⟨image, i⟩ := c
    simp only [Option.elim_some]
    cases hget : T[i]? with
    | none =>
      have hi : i ≤ T.length := hle image i rfl
      simp only [Option.elim_none]
      omega
    | some t =>
      simp only [Option.elim_some, List.length_set]
      have hlt := (List.getElem?_eq_some_iff.1 hget).1
      omega

theorem left_alone {d : Device} {T : List (ℕ × DevicePort)} {pokey : PoKeysDevice}
    (hpokey : d.pokey = some pokey) (readings : List Reading) (c : ℕ) :
    (alone Watch.next ⟨⟨d, readings, none⟩, T⟩ c).1.left ≤
      readings.length * (T.length + 2) - c := by
  induction c with
  | zero => exact le_rfl
  | succ c ih =>
    have halong := along_alone (T := T) hpokey readings c
    have hstep := Watch.left_next halong.image fun _ _ => halong.locals_le
    rw [alone_succ]
    exact hstep.trans (by omega)

/-! ### What the loops come to -/

/-- Each loop is along its own readings, and done with them after enough steps. -/
theorem runLoops_along {K : Set ℕ} {m : Memory} {loops : ℕ → DeviceLoop}
    {T : ℕ → List (ℕ × DevicePort)} (hholds : ∀ k ∈ K, Holds m (loops k).device (T k))
    (himage : ∀ k ∈ K, (loops k).device.pokey.isSome = true)
    (hidle : ∀ k ∈ K, (loops k).locals = none)
    (hapart : ∀ k ∈ K, ∀ k' ∈ K, k ≠ k' →
      List.Disjoint ((T k).map Prod.fst) ((T k').map Prod.fst))
    {schedule : List ℕ} (hschedule : ∀ k ∈ schedule, k ∈ K) :
    ∃ loops' m' log, (runLoops schedule loops).run m = .ok loops' m' ∧ m'.sent = m.sent ∧
      m'.messages = m.messages ++ log.map (fun e => e.2.2) ∧ (∀ e ∈ log, e.1 ∈ K) ∧
      ∀ k ∈ K, ∃ w : Watch, w.loop = loops' k ∧ Holds m' w.loop.device w.table ∧
        Along (loops k).device (T k) (loops k).readings w (outputOf k log) ∧
        w.left ≤ (loops k).readings.length * ((T k).length + 2) - schedule.count k := by
  have hstart : Watches K m fun k => ⟨loops k, T k⟩ :=
    ⟨fun k hk => ⟨hholds k hk, himage k hk⟩, hapart⟩
  obtain ⟨m', hrun, hwatches, hsent, hmessages⟩ := hstart.run hschedule
  refine ⟨_, m', _, hrun, hsent, hmessages, fun e he => hschedule _ (fst_mem_of_mem_run _ he),
    fun k hk => ⟨_, rfl, (hwatches.inHeap k hk).holds, ?_, ?_⟩⟩
  · rw [run_own, run_output]
    obtain ⟨pokey, hpokey⟩ := Option.isSome_iff_exists.1 (himage k hk)
    have halong := along_alone (T := T k) hpokey (loops k).readings (schedule.count k)
    rwa [← hidle k hk] at halong
  · rw [run_own]
    obtain ⟨pokey, hpokey⟩ := Option.isSome_iff_exists.1 (himage k hk)
    have hleft := left_alone (T := T k) hpokey (loops k).readings (schedule.count k)
    rwa [← hidle k hk] at hleft

/-- A loop between two callbacks. -/
theorem Along.idle {d : Device} {T : List (ℕ × DevicePort)} {readings : List Reading} {w : Watch}
    {out : List (ℕ × Message)} (h : Along d T readings w out) (hnone : w.loop.locals = none) :
    ∃ taken, readings = taken ++ w.loop.readings ∧ w.table = taken.foldl polledTable T ∧
      out = pollReports d.name T taken := by
  cases h with
  | between taken rest pokey h => exact ⟨taken, h, rfl, rfl⟩
  | within => cases hnone

/-- All messages of a loop are about the inputs of its table. -/
theorem Along.names {d : Device} {T : List (ℕ × DevicePort)} {readings : List Reading} {w : Watch}
    {out : List (ℕ × Message)} (h : Along d T readings w out) : ∀ e ∈ out, Names d.name T e := by
  cases h with
  | between taken rest pokey h => exact fun e he => names_of_mem_pollReports he
  | within taken rest reading pokey pre post h hok hT =>
    intro e he
    rcases List.mem_append.1 he with he | he
    · exact names_of_mem_pollReports he
    · obtain ⟨t, ht, hrest⟩ := names_of_mem_reportsFrom he
      have hpolled : Names d.name (taken.foldl polledTable T) e := by
        refine ⟨t, ?_, hrest⟩
        rw [hT, List.getElem?_append_left (List.getElem?_eq_some_iff.1 ht).1, ht]
      exact hpolled.of_foldl

/-- A loop with nothing left to do. -/
theorem Along.done {d : Device} {T : List (ℕ × DevicePort)} {readings : List Reading} {w : Watch}
    {out : List (ℕ × Message)} (h : Along d T readings w out) (hleft : w.left = 0) :
    w.loop.locals = none ∧ w.loop.readings = [] := by
  cases h with
  | between taken rest pokey h =>
    refine ⟨rfl, ?_⟩
    cases rest with
    | nil => rfl
    | cons reading rest =>
      simp only [Watch.left, List.length_cons, Nat.add_mul, Option.elim_none] at hleft
      omega
  | within taken rest reading pokey pre post h hok hT =>
    simp only [Watch.left, List.length_append, List.length_map, Option.elim_some] at hleft
    omega

/-- **Loops on devices that share no record do not disturb each other.**  Under every schedule they
run without a fault; a loop that is between two callbacks has left in its records, and logged, what
`pollDevice` leaves and logs for the readings it has taken with the heap to itself; and a loop that
moves often enough takes them all. -/
theorem runLoops_alone {K : Set ℕ} {m : Memory} {loops : ℕ → DeviceLoop}
    {T : ℕ → List (ℕ × DevicePort)} (hholds : ∀ k ∈ K, Holds m (loops k).device (T k))
    (himage : ∀ k ∈ K, (loops k).device.pokey.isSome = true)
    (hidle : ∀ k ∈ K, (loops k).locals = none)
    (hapart : ∀ k ∈ K, ∀ k' ∈ K, k ≠ k' →
      List.Disjoint ((T k).map Prod.fst) ((T k').map Prod.fst))
    {schedule : List ℕ} (hschedule : ∀ k ∈ schedule, k ∈ K) :
    ∃ (loops' : ℕ → DeviceLoop) (m' : Memory) (log : List (ℕ × ℕ × Message)),
      (runLoops schedule loops).run m = .ok loops' m' ∧ m'.sent = m.sent ∧
      m'.messages = m.messages ++ log.map (fun e => e.2.2) ∧ (∀ e ∈ log, e.1 ∈ K) ∧
      ∀ k ∈ K,
        ((loops k).readings.length * ((T k).length + 2) ≤ schedule.count k →
          (loops' k).locals = none ∧ (loops' k).readings = []) ∧
        ((loops' k).locals = none → ∃ taken d' m₁,
          (loops k).readings = taken ++ (loops' k).readings ∧
          (pollDevice taken (loops k).device).run m = .ok d' m₁ ∧
          (∀ q ∈ (T k).map Prod.fst, m'.ports[q]? = m₁.ports[q]?) ∧
          m₁.messages = m.messages ++ (outputOf k log).map Prod.snd) := by
  obtain ⟨loops', m', log, hrun, hsent, hmessages, hlog, hloops⟩ :=
    runLoops_along hholds himage hidle hapart hschedule
  refine ⟨loops', m', log, hrun, hsent, hmessages, hlog, fun k hk => ?_⟩
  obtain ⟨w, hw, hheap, halong, hleft⟩ := hloops k hk
  constructor
  · intro hcount
    rw [← hw]
    exact halong.done (by omega)
  · intro hnone
    rw [← hw] at hnone ⊢
    obtain ⟨taken, hreadings, htable, hlog⟩ := halong.idle hnone
    obtain ⟨image, himage⟩ := Option.isSome_iff_exists.1 (himage k hk)
    obtain ⟨pokey', m₁, halone, -, hheap₁, hlogged⟩ :=
      pollDevice_holds (hholds k hk) himage taken
    refine ⟨taken, _, m₁, hreadings, halone, fun q hq => ?_, ?_⟩
    · rw [htable] at hheap
      rw [← foldl_polledTable_map_fst taken] at hq
      exact hheap.ports_eq hheap₁ hq
    · rw [hlog]
      exact hlogged.messages

/-- The keys of two devices. -/
def keyOf (k : ℕ) : DevicePort :=
  ⟨if k = 0 then "Left" else "Right", 3, PinType.digitalInput, 0, 0, 0, 0, 0⟩

/-- The loop on the key `k`, which is found pressed. -/
def keyLoop (k : ℕ) : DeviceLoop :=
  ⟨{ Device.cleared with
      numberOfPins := 1
      pokey := some (.cleared 55)
      pins := fun i => if i = 0 then some k else none }, [readingOf 1], none⟩

theorem holds_keyLoop {k : ℕ} (hk : k < 2) :
    Holds (memoryOf [keyOf 0, keyOf 1]) (keyLoop k).device [(k, keyOf k)] where
  count := rfl
  slot := fun i t ht => by
    cases i with
    | zero => cases ht; rfl
    | succ i => cases ht
  port := fun t ht => by
    obtain rfl := List.mem_singleton.1 ht
    interval_cases k <;> rfl
  nodup := List.nodup_singleton k

/-- Their loops take turns. -/
theorem runLoops_alone_twoKeys : ∃ loops' m',
    (runLoops [0, 1, 1, 0, 1, 0] keyLoop).run (memoryOf [keyOf 0, keyOf 1]) = .ok loops' m' ∧
      ∀ k < 2, (loops' k).locals = none ∧ (loops' k).readings = [] := by
  have hapart : ∀ k ∈ {k | k < 2}, ∀ k' ∈ {k | k < 2}, k ≠ k' →
      List.Disjoint ([(k, keyOf k)].map Prod.fst) ([(k', keyOf k')].map Prod.fst) := by
    intro k _ k' _ hne q hq hq'
    have hk : q = k := List.mem_singleton.1 hq
    have hk' : q = k' := List.mem_singleton.1 hq'
    exact hne (hk.symm.trans hk')
  have hschedule : ∀ k ∈ [0, 1, 1, 0, 1, 0], k ∈ {k | k < 2} := by decide
  obtain ⟨loops', m', _, hrun, -, -, -, hloops⟩ := runLoops_alone (K := {k | k < 2})
    (T := fun k => [(k, keyOf k)]) (fun _ hk => holds_keyLoop hk) (fun _ _ => rfl)
    (fun _ _ => rfl) hapart hschedule
  refine ⟨loops', m', hrun, fun k hk => (hloops k hk).1 ?_⟩
  show 3 ≤ [0, 1, 1, 0, 1, 0].count k
  interval_cases k <;> decide

end SimPokey
