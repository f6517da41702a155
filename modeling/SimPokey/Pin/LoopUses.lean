import SimPokey.Pin.DeviceLoops

/-!
# What loops side by side use

A loop uses the slots of its table and the elements of `Pins[]` of its inputs, and neither changes
while it runs (`Watch.Within`).  So under every schedule the loops use what they would use at the
start, and nothing else (`Watches.run_uses`).
-/

namespace SimPokey

open FaultState

/-- All that the watch may use is in `S`; its images have `count` pins. -/
structure Watch.Within (S : Set Access) (count : ℕ) (w : Watch) : Prop where
  image : ∀ pokey, w.loop.device.pokey = some pokey → pokey.iPinCount = count
  locals : ∀ pokey i, w.loop.locals = some (pokey, i) → pokey.iPinCount = count
  slots : ∀ k < w.table.length, .pins (k : ℕ) ∈ S
  inputs : ∀ t ∈ w.table, t.2.type = PinType.digitalInput → .pokeyPins count (t.2.pin - 1) ∈ S

section Watch

variable {S : Set Access} {count : ℕ} {w : Watch} {m : Memory}

/-- A step keeps to `S`. -/
theorem Watch.Within.next (h : w.Within S count) : w.next.1.Within S count := by
  obtain ⟨⟨device, readings, locals⟩, T⟩ := w
  unfold Watch.next
  cases locals with
  | none =>
    cases readings with
    | nil => exact h
    | cons reading readings =>
      cases hpokey : device.pokey with
      | none =>
        exact h
      | some pokey =>
        have hcount := h.image pokey hpokey
        refine ⟨fun pokey' himage => ?_, fun pokey' i hlocals => ?_, h.slots, h.inputs⟩
        · cases himage
          exact hcount
        · dsimp only at hlocals
          split_ifs at hlocals
          cases hlocals
          exact hcount
  | some local_ =>
    obtain ⟨image, i⟩ := local_
    have hcount := h.locals image i rfl
    dsimp only
    cases hget : T[i]? with
    | none => exact ⟨h.image, fun pokey j hlocals => (by cases hlocals), h.slots,
        h.inputs⟩
    | some t =>
      refine ⟨h.image, fun pokey j hlocals => ?_, fun k hk => h.slots k ?_, fun t' ht' htype => ?_⟩
      · cases hlocals
        exact hcount
      · simpa using hk
      · rcases List.mem_or_eq_of_mem_set ht' with ht' | rfl
        · exact h.inputs t' ht' htype
        · dsimp only at htype ⊢
          rw [polled_type] at htype
          rw [polled_pin]
          exact h.inputs t (List.mem_of_getElem? hget) htype

/-- One turn of the polling loop. -/
theorem pollSlot_uses {d : Device} {T : List (ℕ × DevicePort)} (h : Holds m d T) {i : ℕ}
    {t : ℕ × DevicePort} (ht : T[i]? = some t) (pokey : PoKeysDevice) (hslot : .pins (i : ℕ) ∈ S)
    (hinput : t.2.type = PinType.digitalInput → .pokeyPins pokey.iPinCount (t.2.pin - 1) ∈ S) :
    UsesOnly (· ∈ S) m (final ((pollSlot d pokey i).run m)) := by
  have huse : UsesOnly (· ∈ S) m (m.touch (.pins i)) := .touch hslot m
  unfold pollSlot
  rw [bind_of_ok (portAt_of_holds h ht)]
  by_cases htype : t.2.type = PinType.digitalInput
  · simp only [if_neg (not_not.2 htype)]
    have huse' := huse.trans (.touch (hinput htype) (m.touch (.pins i)))
    rw [bind_of_ok (touch_run _ _), run_ite]
    split_ifs <;> exact huse'
  · simp only [if_pos htype]
    exact huse

/-- What a step uses is in `S`. -/
theorem Watch.Within.step (h : w.Within S count) (hin : w.In m) :
    UsesOnly (· ∈ S) m (final (w.loop.step.run m)) := by
  obtain ⟨⟨device, readings, locals⟩, T⟩ := w
  have hholds : Holds m device T := hin.holds
  unfold DeviceLoop.step
  cases locals with
  | none =>
    cases readings with
    | nil => exact .of_eq _ rfl
    | cons reading readings =>
      obtain ⟨pokey, hpokey⟩ := Option.isSome_iff_exists.1 hin.image
      change device.pokey = some pokey at hpokey
      dsimp only
      rw [bind_of_ok (pokeyOf_run hpokey m)]
      exact .of_eq _ rfl
  | some local_ =>
    obtain ⟨image, i⟩ := local_
    have hcount := h.locals image i rfl
    dsimp only
    split_ifs with hturn
    · have hi : i < T.length := by
        rw [hholds.count] at hturn
        omega
      have huses := pollSlot_uses hholds (List.getElem?_eq_getElem hi) image (h.slots i hi)
        fun htype => by
          rw [hcount]
          exact h.inputs _ (List.getElem_mem hi) htype
      refine final_bind (UsesOnly (· ∈ S) m) (fun e m' hrun => ?_) fun u m' hrun => ?_
      · rwa [hrun] at huses
      · rw [hrun] at huses
        exact huses
    · exact .of_eq _ rfl

end Watch

/-- **The loops use nothing outside `S`**, if each watch keeps to it. -/
theorem Watches.run_uses {K : Set ℕ} {m : Memory} {ws : ℕ → Watch} (h : Watches K m ws)
    {S : Set Access} {count : ℕ → ℕ} (hS : ∀ k ∈ K, (ws k).Within S (count k))
    {schedule : List ℕ} (hschedule : ∀ k ∈ schedule, k ∈ K) :
    UsesOnly (· ∈ S) m (final ((runLoops schedule fun k => (ws k).loop).run m)) := by
  obtain ⟨_, m', hrun, _, -, -, -, huses⟩ := foldlM_total
    (fun _ loops m' => ∃ ws' : ℕ → Watch, loops = (fun k => (ws' k).loop) ∧ Watches K m' ws' ∧
      (∀ k ∈ K, (ws' k).Within S (count k)) ∧ UsesOnly (· ∈ S) m m')
    (f := fun loops k => do
      let l ← (loops k).step
      pure (Function.update loops k l)) (l := schedule) (b := fun k => (ws k).loop) (s := m)
    ⟨ws, rfl, h, hS, .of_eq _ rfl⟩ (by
      rintro done k rest loops m₁ hsplit ⟨ws', rfl, hwatches, hwithin, huses⟩
      have hk : k ∈ K := hschedule k (by rw [hsplit]; simp)
      obtain ⟨m₂, hstep, hwatches₂, -⟩ := hwatches.step hk
      have huse := (hwithin k hk).step (hwatches.inHeap k hk)
      rw [hstep] at huse
      refine ⟨_, m₂, bind_of_ok hstep, Function.update ws' k (ws' k).next.1, ?_, hwatches₂,
        fun j hj => ?_, huses.trans huse⟩
      · funext j
        by_cases hj : j = k
        · subst hj
          rw [Function.update_self, Function.update_self]
        · rw [Function.update_of_ne hj, Function.update_of_ne hj]
      · by_cases hjk : j = k
        · subst hjk
          rw [Function.update_self]
          exact (hwithin j hj).next
        · rw [Function.update_of_ne hjk]
          exact hwithin j hj)
  have hrun' : (runLoops schedule fun k => (ws k).loop).run m = .ok _ m' := hrun
  rw [hrun']
  exact huses

end SimPokey
