import SimPokey.Pin.Apply

/-!
# The table after validation

`checkValidPinConfiguration` goes through the table and marks the records that pass the check of
their type; it moves nothing and changes nothing else.  What it uses are the slots and the blocks of
its texts, and it logs the texts of the records that are not valid
(`checkValidPinConfiguration_holds`).
-/

namespace SimPokey

open FaultState

/-- The record as validation leaves it. -/
def validated (lib : PoKeysLib) (pokey : PoKeysDevice) (port : DevicePort) : DevicePort :=
  if passesCheck lib pokey port then { port with valid := 1 } else port

/-- The table as validation leaves it. -/
def validatedTable (lib : PoKeysLib) (pokey : PoKeysDevice) (T : List (ℕ × DevicePort)) :
    List (ℕ × DevicePort) :=
  T.map fun t => (t.1, validated lib pokey t.2)

theorem validated_same (lib : PoKeysLib) (pokey : PoKeysDevice) (port : DevicePort) :
    validated lib pokey port = { port with valid := (validated lib pokey port).valid } := by
  unfold validated; split_ifs <;> rfl

@[simp] theorem validated_pin (lib : PoKeysLib) (pokey : PoKeysDevice) (port : DevicePort) :
    (validated lib pokey port).pin = port.pin := by
  rw [validated_same]

@[simp] theorem validated_type (lib : PoKeysLib) (pokey : PoKeysDevice) (port : DevicePort) :
    (validated lib pokey port).type = port.type := by
  rw [validated_same]

/-- A mark does not matter for the check. -/
theorem passesCheck_validated (lib lib' : PoKeysLib) (pokey pokey' : PoKeysDevice)
    (port : DevicePort) : passesCheck lib pokey (validated lib' pokey' port) =
      passesCheck lib pokey port := by
  unfold validated; split_ifs <;> rfl

/-- A record that was not valid is valid afterwards exactly when it passes. -/
theorem validated_valid_iff (lib : PoKeysLib) (pokey : PoKeysDevice) {port : DevicePort}
    (h : port.valid = pinInvalid) :
    (validated lib pokey port).valid ≠ pinInvalid ↔ passesCheck lib pokey port = true := by
  unfold validated
  split_ifs with hp
  · simp [hp, pinInvalid]
  · simp [hp, h]

theorem records_validatedTable (lib : PoKeysLib) (pokey : PoKeysDevice)
    (T : List (ℕ × DevicePort)) :
    records (validatedTable lib pokey T) = (records T).map (validated lib pokey) := by
  simp only [records, validatedTable, List.map_map]
  rfl

/-! ### Replacing a record -/

/-- Writing through one pointer of a table replaces that record and no other. -/
theorem Holds.write {m : Memory} {d : Device} {pre post : List (ℕ × DevicePort)} {p : ℕ}
    {port : DevicePort} (h : Holds m d (pre ++ (p, port) :: post)) (port' : DevicePort) :
    Holds { m with ports := m.ports.set p port' } d (pre ++ (p, port') :: post) where
  count := by rw [h.count]; simp
  slot := fun i t ht => by
    rcases lt_trichotomy i pre.length with hi | rfl | hi
    · refine h.slot i t ?_
      rw [List.getElem?_append_left hi] at ht ⊢
      exact ht
    · simp only [List.getElem?_append_right le_rfl, Nat.sub_self, List.getElem?_cons_zero,
        Option.some.injEq] at ht
      have hslot := h.slot pre.length (p, port) (by simp)
      rw [hslot, ← ht]
    · refine h.slot i t ?_
      rw [List.getElem?_append_right hi.le] at ht ⊢
      obtain ⟨j, hj⟩ : ∃ j, i - pre.length = j + 1 := ⟨i - pre.length - 1, by omega⟩
      rw [hj, List.getElem?_cons_succ] at ht ⊢
      exact ht
  port := fun t ht => by
    have hnd := h.nodup
    simp only [List.map_append, List.map_cons, List.nodup_append, List.nodup_cons,
      List.mem_cons, List.mem_map] at hnd
    obtain ⟨-, ⟨hpost, -⟩, hpre⟩ := hnd
    -- every other pointer of the table differs from `p`
    have hother : ∀ u, u ∈ pre ∨ u ∈ post → (m.ports.set p port')[u.1]? = some u.2 := by
      rintro u (hu | hu)
      · have hne : p ≠ u.1 := fun e => hpre u.1 ⟨u, hu, rfl⟩ p (Or.inl rfl) e.symm
        rw [List.getElem?_set_ne hne]
        exact h.port u (by simp [hu])
      · have hne : p ≠ u.1 := fun e => hpost ⟨u, hu, e.symm⟩
        rw [List.getElem?_set_ne hne]
        exact h.port u (by simp [hu])
    rcases List.mem_append.1 ht with ht | ht
    · exact hother t (Or.inl ht)
    · rcases List.mem_cons.1 ht with rfl | ht
      · have hlt : p < m.ports.length := h.fst_lt (t := (p, port)) (by simp)
        exact List.getElem?_set_self hlt
      · exact hother t (Or.inr ht)
  nodup := by
    have hnd := h.nodup
    rw [List.map_append, List.map_cons] at hnd ⊢
    exact hnd

/-- Which record a device's image is does not matter for its table. -/
theorem Holds.withPokey {m : Memory} {d : Device} {T : List (ℕ × DevicePort)} (h : Holds m d T)
    (pokey : Option PoKeysDevice) (hasPokey : ℤ) :
    Holds m { d with pokey := pokey, hasPokey := hasPokey } T :=
  ⟨h.count, h.slot, h.port, h.nodup⟩

/-! ### A loop that rewrites the records -/

/-- A loop over the slots in which each turn replaces its record by `f` of it rewrites the table
with `f`; an invariant `I` of the turns, counted, is carried to the end. -/
theorem Holds.foldlM_rewrite {d : Device} {T : List (ℕ × DevicePort)} {m : Memory}
    (body : ℕ → MemRun Unit) (f : DevicePort → DevicePort) (I : ℕ → Memory → Prop)
    (h : Holds m d T) (h0 : I 0 m) (hbody : ∀ pre t post m, T[pre.length]? = some t →
      T.map Prod.fst = (pre ++ t :: post).map Prod.fst → Holds m d (pre ++ t :: post) →
      I pre.length m → ∃ m', (body pre.length).run m = .ok () m' ∧
        Holds m' d (pre ++ (t.1, f t.2) :: post) ∧ I (pre.length + 1) m') :
    ∃ m', ((List.range T.length).foldlM (fun _ i => body i) ()).run m = .ok () m' ∧
      Holds m' d (T.map fun t => (t.1, f t.2)) ∧ I T.length m' := by
  let g : ℕ × DevicePort → ℕ × DevicePort := fun t => (t.1, f t.2)
  have hfst : ∀ l : List (ℕ × DevicePort), (l.map g).map Prod.fst = l.map Prod.fst := fun l => by
    rw [List.map_map]; rfl
  -- after `k` turns the first `k` records are rewritten
  obtain ⟨b', m', hrun, hholds, hI⟩ := rangeM_total (f := fun (_ : Unit) i => body i)
    (fun k _ m' => Holds m' d ((T.take k).map g ++ T.drop k) ∧ I k m')
    (n := T.length) (b := ()) (s := m) ⟨by simpa using h, h0⟩ (by
      rintro k hk _ m₁ ⟨hholds, hI⟩
      rw [List.drop_eq_getElem_cons hk] at hholds
      have hlen : ((T.take k).map g).length = k := by simp; omega
      obtain ⟨m₂, hrun, hholds', hI'⟩ := hbody _ T[k] _ m₁
        (by rw [hlen, List.getElem?_eq_getElem hk]) (by
          rw [List.map_append, hfst, ← List.map_append, ← List.drop_eq_getElem_cons hk,
            List.take_append_drop]) hholds (hlen.symm ▸ hI)
      rw [hlen] at hrun hI'
      refine ⟨(), m₂, hrun, ?_, hI'⟩
      rw [← List.take_concat_get' T k hk, List.map_append, List.append_assoc]
      exact hholds')
  rw [List.take_length, List.drop_length, List.append_nil] at hholds
  exact ⟨m', hrun, hholds, hI⟩

/-! ### The texts -/

/-- The writes to the text of a record. -/
def textUses (lib : PoKeysLib) (pokey : PoKeysDevice) (port : DevicePort) : List Access :=
  let length := (reportText port).length
  .text (length + 1) length :: if passesCheck lib pokey port then []
    else ((incorrectType port.type).map fun s => .text (length + 1) (length + s.length)).toList

/-- The mark of a record is in no text. -/
theorem textUses_validated (lib lib' : PoKeysLib) (pokey pokey' : PoKeysDevice)
    (port : DevicePort) : textUses lib pokey (validated lib' pokey' port) =
      textUses lib pokey port := by
  unfold validated; split_ifs <;> rfl

/-- The line of a record, if it has one. -/
def reportLine (lib : PoKeysLib) (pokey : PoKeysDevice) (port : DevicePort) : Option String :=
  if (validated lib pokey port).valid = pinInvalid then
    some (reportText port ++ (incorrectType port.type).getD "")
  else none

/-- What checking the records `ps` uses. -/
def checkUses (lib : PoKeysLib) (pokey : PoKeysDevice) (ps : List DevicePort) : List Access :=
  ps.zipIdx.flatMap fun e => .pins e.2 :: textUses lib pokey e.1

theorem checkUses_concat (lib : PoKeysLib) (pokey : PoKeysDevice) (ps : List DevicePort)
    (p : DevicePort) : checkUses lib pokey (ps ++ [p]) =
      checkUses lib pokey ps ++ .pins ps.length :: textUses lib pokey p := by
  simp [checkUses, List.zipIdx_append]

/-- What a record that is checked uses is its slot or its text. -/
theorem mem_checkUses {lib : PoKeysLib} {pokey : PoKeysDevice} {ps : List DevicePort} {a : Access} :
    a ∈ checkUses lib pokey ps ↔
      (∃ k : ℕ, k < ps.length ∧ a = .pins k) ∨ ∃ p ∈ ps, a ∈ textUses lib pokey p := by
  rw [checkUses, List.mem_flatMap]
  constructor
  · rintro ⟨e, he, ha⟩
    rcases List.mem_cons.1 ha with rfl | ha
    · exact Or.inl ⟨e.2, List.snd_lt_of_mem_zipIdx he, rfl⟩
    · exact Or.inr ⟨e.1, List.fst_mem_of_mem_zipIdx he, ha⟩
  · rintro (⟨k, hk, rfl⟩ | ⟨p, hp, ha⟩)
    · exact ⟨(ps[k], k), List.mem_zipIdx_iff_getElem?.2 (List.getElem?_eq_getElem hk),
        List.mem_cons_self⟩
    · obtain ⟨k, hk⟩ := List.mem_iff_getElem?.1 hp
      exact ⟨(p, k), List.mem_zipIdx_iff_getElem?.2 hk, List.mem_cons_of_mem _ ha⟩

/-! ### The loop -/

/-- The memory after the turn of the slot `i`, which holds the pointer and the record `t`. -/
def Memory.checked (m : Memory) (lib : PoKeysLib) (pokey : PoKeysDevice) (i : ℕ)
    (t : ℕ × DevicePort) : Memory :=
  { m with
    ports := m.ports.set t.1 (validated lib pokey t.2)
    accesses := m.accesses ++ .pins i :: textUses lib pokey t.2
    reports := m.reports ++ (reportLine lib pokey t.2).toList }

theorem asprintf_run (text : String) (m : Memory) : (asprintf text).run m =
    .ok ⟨text.length + 1, text⟩ (m.touch (.text (text.length + 1) text.length)) := rfl

/-- The reason, if there is one, is appended to the text. -/
theorem strcat_incorrectType_run (type : ℤ) (str : TextBlock) (m : Memory) :
    ((incorrectType type).elim (pure str) (strcat str) : MemRun TextBlock).run m =
      .ok { str with text := str.text ++ (incorrectType type).getD "" } { m with
        accesses := m.accesses ++ ((incorrectType type).map fun s =>
          Access.text str.size (str.text.length + s.length)).toList } := by
  cases incorrectType type with
  | none =>
    show EStateM.Result.ok str m = _
    simp
  | some s => rfl

theorem checkPort_run (lib : PoKeysLib) (pokey : PoKeysDevice) {m : Memory} {d : Device} {i : ℕ}
    {t : ℕ × DevicePort} (hread : (portAt d i).run m = .ok t (m.touch (.pins i)))
    (hport : m.ports[t.1]? = some t.2) :
    (checkPort lib d pokey i).run m = .ok () (m.checked lib pokey i t) := by
  have hslot : ∀ uses, m.accesses ++ Access.pins i :: uses =
      (m.touch (.pins i)).accesses ++ uses := fun uses => List.append_cons ..
  unfold checkPort
  rw [bind_of_ok hread, Memory.checked, hslot]
  by_cases hp : passesCheck lib pokey t.2 = true
  · simp only [textUses, reportLine, validated, hp, if_true, pinInvalid, one_ne_zero, if_false,
      Option.toList_none, List.append_nil]
    rfl
  · have hset : m.ports.set t.1 t.2 = m.ports := by
      obtain ⟨hlt, hget⟩ := List.getElem?_eq_some_iff.1 hport
      rw [← hget, List.set_getElem_self]
    simp only [textUses, reportLine, validated, hp, if_false, hset, Bool.false_eq_true]
    rw [bind_of_ok (asprintf_run ..), bind_of_ok (strcat_incorrectType_run ..), List.append_cons]
    by_cases hvalid : t.2.valid = pinInvalid
    · simp only [hvalid, if_true]
      rfl
    · simp only [hvalid, if_false, Option.toList_none, List.append_nil]
      rfl

/-- The memories of a loop over the table `T` that has checked the records `ps`. -/
structure Checks (lib : PoKeysLib) (pokey : PoKeysDevice) (T : List (ℕ × DevicePort))
    (ps : List DevicePort) (m m' : Memory) : Prop where
  length : m'.ports.length = m.ports.length
  others : ∀ p, p ∉ T.map Prod.fst → m'.ports[p]? = m.ports[p]?
  sent : m'.sent = m.sent
  messages : m'.messages = m.messages
  accesses : m'.accesses = m.accesses ++ checkUses lib pokey ps
  reports : m'.reports = m.reports ++ ps.filterMap (reportLine lib pokey)

theorem Checks.refl (lib : PoKeysLib) (pokey : PoKeysDevice) (T : List (ℕ × DevicePort))
    (m : Memory) : Checks lib pokey T [] m m :=
  ⟨rfl, fun _ _ => rfl, rfl, rfl, (List.append_nil _).symm, (List.append_nil _).symm⟩

/-- One more record is checked. -/
theorem Checks.turn {lib : PoKeysLib} {pokey : PoKeysDevice} {T : List (ℕ × DevicePort)}
    {ps : List DevicePort} {m m' : Memory} (h : Checks lib pokey T ps m m') {t : ℕ × DevicePort}
    (ht : t.1 ∈ T.map Prod.fst) :
    Checks lib pokey T (ps ++ [t.2]) m (m'.checked lib pokey ps.length t) where
  length := by rw [← h.length]; exact List.length_set
  others := fun q hq => by
    have hne : t.1 ≠ q := fun e => hq (e ▸ ht)
    show (m'.ports.set t.1 _)[q]? = _
    rw [List.getElem?_set_ne hne, h.others q hq]
  sent := h.sent
  messages := h.messages
  accesses := by
    rw [checkUses_concat, ← List.append_assoc, ← h.accesses]
    rfl
  reports := by
    show m'.reports ++ _ = _
    rw [h.reports, List.filterMap_append, List.append_assoc]
    congr 1

/-- **Validation marks the records that pass and leaves everything else as it was.** -/
theorem checkValidPinConfiguration_holds (lib : PoKeysLib) {pokey : PoKeysDevice} {m : Memory}
    {d : Device} {T : List (ℕ × DevicePort)} (h : Holds m d T) (hhas : d.hasPokey ≠ 0)
    (hpokey : d.pokey = some pokey) :
    ∃ m', (checkValidPinConfiguration lib d).run m =
        .ok (0, { d with pokey := some (lib.readPinConfiguration pokey) }) m' ∧
      Holds m' { d with pokey := some (lib.readPinConfiguration pokey) }
        (validatedTable lib (lib.readPinConfiguration pokey) T) ∧
      Checks lib (lib.readPinConfiguration pokey) T (records T) m m' := by
  let image := lib.readPinConfiguration pokey
  obtain ⟨m', hrun, hholds, hchecks⟩ := h.foldlM_rewrite (checkPort lib d image)
    (validated lib image) (fun k => Checks lib image T (records (T.take k)) m)
    (Checks.refl lib image T m) (by
      intro pre t post m₁ ht hT hpre hchecks
      have hlt : pre.length < T.length := (List.getElem?_eq_some_iff.1 ht).1
      have hread := portAt_of_holds hpre (i := pre.length) (t := t) (by simp)
      refine ⟨_, checkPort_run lib image hread (hpre.port t (by simp)), ?_, ?_⟩
      · exact (hpre.write (validated lib image t.2)).mono (List.prefix_refl _)
      · have hlen : (records (T.take pre.length)).length = pre.length := by
          simp only [records, List.length_map, List.length_take]
          omega
        have hturn := hchecks.turn (t := t) (List.mem_map_of_mem (List.mem_of_getElem? ht))
        rw [hlen] at hturn
        have hrecords : records (T.take (pre.length + 1)) =
            records (T.take pre.length) ++ [t.2] := by
          rw [List.take_add_one, ht, records, records, List.map_append]
          rfl
        rwa [hrecords])
  refine ⟨m', ?_, hholds.withPokey _ _, by rwa [List.take_length] at hchecks⟩
  unfold checkValidPinConfiguration
  rw [run_ite, if_neg hhas]
  rw [bind_of_ok (pokeyOf_run hpokey m)]
  simp only [h.count, Int.toNat_natCast]
  rw [bind_of_ok hrun]
  rfl

end SimPokey
