import SimPokey.Startup.Loaded

/-!
# What the startup loop leaves

A slot is brought up at most once, in its own turn, so the slots of a site are its history.
`Explained` says how everything else follows from them: a record is marked valid when it passed
the check of some turn that brought up a copy of its device, the image of a connected slot is what
applying the marks made so far gives, what has been sent is what the connected slots sent, in
order, and the texts fit that were written for them.  Every turn keeps it (`Explained.turn`), so it
holds in every state the loop reaches (`siteLoop_explained`).
-/

namespace SimPokey

open FaultState

/-! ### What a turn that brings up a device does -/

/-- What has been sent before only stands in front of what the table sends. -/
theorem appliedTable_append (junk : ℕ → PwmJunk) (ps : List DevicePort) (pokey : PoKeysDevice)
    (calls : List LibCall) : appliedTable junk ps (pokey, calls) =
      ((appliedTable junk ps (pokey, [])).1, calls ++ (appliedTable junk ps (pokey, [])).2) := by
  have hfold : ∀ (es : List (DevicePort × ℕ)) (pokey : PoKeysDevice) (calls : List LibCall),
      es.foldl (appliedTurn junk) (pokey, calls) =
        ((es.foldl (appliedTurn junk) (pokey, [])).1,
          calls ++ (es.foldl (appliedTurn junk) (pokey, [])).2) := by
    intro es
    induction es with
    | nil => exact fun pokey calls => by rw [List.foldl_nil, List.foldl_nil, List.append_nil]
    | cons e es ih =>
      intro pokey calls
      have hturn : ∀ calls, (e :: es).foldl (appliedTurn junk) (pokey, calls) =
          es.foldl (appliedTurn junk) (appliedPort (junk e.2) pokey e.1,
            calls ++ sentByPort (junk e.2) pokey e.1) := fun calls => rfl
      rw [hturn, hturn, ih, ih _ ([] ++ _), List.nil_append, List.append_assoc]
  exact hfold ps.zipIdx pokey calls

section Turns

variable (env : Env) (name : ℕ → String)

/-- The image that applying the records `ports` leaves in the turn `i`. -/
def appliedImage (i l : ℕ) (pokey : PoKeysDevice) (ports : List DevicePort) : PoKeysDevice :=
  (appliedTable (env.junk i) ports (checkedImage env name i l pokey, [])).1

/-- What the turn `i` sends: the name, and what applying the records sends. -/
def turnCalls (i l : ℕ) (pokey : PoKeysDevice) (ports : List DevicePort) : List LibCall :=
  nameCalls (env.afterName i) (name l) pokey ++
    (appliedTable (env.junk i) ports (checkedImage env name i l pokey, [])).2

variable {env name} {serial : ℕ → String}

/-- A device that was brought up. -/
theorem siteBringUp_ok {i l addr : ℕ} {pokey : PoKeysDevice} {r r' : Site}
    (h : (siteBringUp env name i l addr pokey).run r = .ok () r') :
    ∃ ports, ports = (r.ports l).map (validated env.lib (checkedImage env name i l pokey)) ∧
      ports.any dividesByZero = false ∧
      r' = { r with
        slot := Function.update r.slot i
          (some ⟨l, addr, some (appliedImage env name i l pokey ports)⟩)
        ports := Function.update r.ports l ports
        sent := r.sent ++ turnCalls env name i l pokey ports
        textsFit := r.textsFit &&
          casesPass env.lib (checkedImage env name i l pokey) (r.ports l) } := by
  rw [siteBringUp_run] at h
  dsimp only at h
  split_ifs at h with hany
  cases h
  refine ⟨_, rfl, by simpa using hany, ?_⟩
  rw [appliedTable_append, turnCalls, appliedImage, List.append_assoc]

/-- What a turn that returned has done. -/
inductive SiteTurn (env : Env) (serial name : ℕ → String) (i : ℕ) (s : String) (r r' : Site) : Prop
  /-- No slot has the serial number, or the device refused the connection. -/
  | skipped (k : ℕ) (hk : 0 < k) (hr' : r' = { r with brk := r.brk + k })
  /-- A copy of the device of the slot `j` was brought up in the slot `i`. -/
  | up (j : ℕ) (t : Slot) (pokey : PoKeysDevice) (hslot : r.slot j = some t)
      (hserial : serial t.source = s) (hconnect : env.connect i = some pokey)
      (hrun : (siteBringUp env name i t.source r.brk { pokey with addr := r.brk + 1 }).run
        { r with brk := r.brk + 2 } = .ok () r')

/-- The slot the search stops at is empty or has the serial number. -/
theorem Site.search_eq_some {r : Site} {m : ℕ} {s : String} {j : ℕ}
    (h : r.search serial m s = some j) :
    j < m ∧ (r.slot j = none ∨ ∃ t, r.slot j = some t ∧ serial t.source = s) := by
  rw [Site.search, List.find?_range_eq_some] at h
  obtain ⟨hstop, hj, -⟩ := h
  rw [List.mem_range] at hj
  refine ⟨hj, ?_⟩
  cases ht : r.slot j with
  | none => exact Or.inl rfl
  | some t =>
    rw [ht] at hstop
    simp only [Option.elim_some, beq_iff_eq] at hstop
    exact Or.inr ⟨t, rfl, hstop.symm⟩

theorem siteStep_cases {i : ℕ} {nd : NetworkDeviceSummary} {r r' : Site}
    (h : (siteStep env serial name i nd).run r = .ok () r') :
    SiteTurn env serial name i (snprintfD nd.serialNumber) r r' := by
  rw [siteStep_run] at h
  cases hsearch : r.search serial env.network.length (snprintfD nd.serialNumber) with
  | none =>
    rw [hsearch] at h
    cases h
    exact .skipped 1 one_pos rfl
  | some j =>
    rw [hsearch] at h
    obtain ⟨-, hempty | ⟨t, ht, hserial⟩⟩ := Site.search_eq_some hsearch
    · simp only [hempty] at h
      cases h
    · simp only [ht] at h
      cases hconnect : env.connect i with
      | none =>
        simp only [hconnect] at h
        cases h
        exact .skipped 2 two_pos rfl
      | some pokey =>
        simp only [hconnect] at h
        exact .up j t pokey ht hserial hconnect h

/-- What every turn keeps holds in every state the loop reaches. -/
theorem siteLoop_invariant {r₀ : Site} (I : ℕ → Site → Prop) (h0 : I 0 r₀)
    (hstep : ∀ i (hi : i < env.network.length) r r', I i r →
      SiteTurn env serial name i (snprintfD (env.network[i]).serialNumber) r r' → I (i + 1) r') :
    ∀ {i : ℕ} {r : Site}, i ≤ env.network.length →
      (siteLoop env serial name i).run r₀ = .ok () r → I i r := by
  intro i
  induction i with
  | zero =>
    intro r _ h
    cases h
    exact h0
  | succ i ih =>
    intro r hi h
    rw [siteLoop] at h
    obtain ⟨_, r₁, h₁, h₂⟩ := bind_ok_iff.1 h
    rw [List.getElem?_eq_getElem hi] at h₂
    exact hstep i hi r₁ r (ih (by omega) h₁) (siteStep_cases h₂)

theorem SiteTurn.slot_of_ne {i : ℕ} {s : String} {r r' : Site}
    (h : SiteTurn env serial name i s r r') {k : ℕ} (hk : k ≠ i) : r'.slot k = r.slot k := by
  cases h with
  | skipped k _ hr' => rw [hr']
  | up j t pokey _ _ _ hrun =>
    obtain ⟨ports, -, -, hr'⟩ := siteBringUp_ok hrun
    rw [hr']
    exact Function.update_of_ne hk ..

/-- A turn leaves the slots of the turns before it alone. -/
theorem siteLoop_slot {r₀ r r' : Site} {i i' : ℕ} (hle : i ≤ i')
    (h : (siteLoop env serial name i).run r₀ = .ok () r)
    (h' : (siteLoop env serial name i').run r₀ = .ok () r') : ∀ k < i, r'.slot k = r.slot k := by
  induction i', hle using Nat.le_induction generalizing r' with
  | base =>
    rw [h] at h'
    cases h'
    exact fun k _ => rfl
  | succ i' hle ih =>
    rw [siteLoop] at h'
    obtain ⟨_, r₁, h₁, h₂⟩ := bind_ok_iff.1 h'
    intro k hk
    rw [← ih h₁ k hk]
    cases hnd : env.network[i']? with
    | none =>
      rw [hnd] at h₂
      cases h₂
      rfl
    | some nd =>
      rw [hnd] at h₂
      exact (siteStep_cases h₂).slot_of_ne (by omega)

end Turns

/-! ### The slots as a history -/

section History

variable (env : Env) (name : ℕ → String)

/-- The image a connected slot `k` was brought up with. -/
def Slot.found (k : ℕ) (t : Slot) : Option PoKeysDevice :=
  if t.image.isSome then
    (env.connect k).map fun (pokey : PoKeysDevice) => { pokey with addr := t.addr + 1 }
  else none

/-- The record passed the check of one of the first `i` turns, for a copy of the device `l`. -/
def Site.passed (r : Site) (i l : ℕ) (p : DevicePort) : Bool :=
  (List.range i).any fun k => (r.slot k).elim false fun t =>
    t.source == l && (t.found env k).elim false fun pokey =>
      passesCheck env.lib (checkedImage env name k l pokey) p

/-- The record with the mark it has after the first `i` turns. -/
def Site.marked (r : Site) (i l : ℕ) (p : DevicePort) : DevicePort :=
  if r.passed env name i l p then { p with valid := 1 } else p

/-- What the slot `k` sent when it was brought up; the configured tables are `tables`. -/
def Site.calls (tables : ℕ → List DevicePort) (r : Site) (k : ℕ) : List LibCall :=
  (r.slot k).elim [] fun t => (t.found env k).elim [] fun pokey =>
    turnCalls env name k t.source pokey
      ((tables t.source).map (r.marked env name (k + 1) t.source))

/-- The texts of the check of the slot `k`, if it was brought up, fit. -/
def Site.fits (tables : ℕ → List DevicePort) (r : Site) (k : ℕ) : Bool :=
  (r.slot k).elim true fun t => (t.found env k).elim true fun pokey =>
    casesPass env.lib (checkedImage env name k t.source pokey) (tables t.source)

/-- After `i` turns, from `n` configured devices with the tables `tables`. -/
structure Explained (serial : ℕ → String) (tables : ℕ → List DevicePort) (n i : ℕ) (r : Site) :
    Prop where
  filled : ∀ k < n, ∃ t, r.slot k = some t
  source : ∀ k t, r.slot k = some t → t.source < n
  /-- A slot that is not connected is as the configuration left it. -/
  idle : ∀ k t, r.slot k = some t → t.image = none → k < n ∧ t = ⟨k, k, none⟩
  /-- A connected one holds the device that was asked for, with the image its marks give. -/
  up : ∀ k t image, r.slot k = some t → t.image = some image → k < i ∧ ∃ nd pokey,
    env.network[k]? = some nd ∧ serial t.source = snprintfD nd.serialNumber ∧
    t.found env k = some pokey ∧
    image = appliedImage env name k t.source pokey
      ((tables t.source).map (r.marked env name (k + 1) t.source))
  ports : ∀ l, r.ports l = (tables l).map (r.marked env name i l)
  sent : r.sent = (List.range i).flatMap (r.calls env name tables)
  texts : r.textsFit = (List.range i).all (r.fits env name tables)

variable {env name} {serial : ℕ → String} {tables : ℕ → List DevicePort} {n i : ℕ} {r r' : Site}

theorem Slot.found_of_idle {t : Slot} (h : t.image = none) (k : ℕ) : t.found env k = none := by
  rw [Slot.found, h]
  rfl

/-- Only the first `i` slots matter. -/
theorem Site.passed_congr (h : ∀ k < i, r'.slot k = r.slot k) (l : ℕ) (p : DevicePort) :
    r'.passed env name i l p = r.passed env name i l p := by
  have hany : ∀ r : Site, (List.range i).any (fun k => (r.slot k).elim false fun t =>
      t.source == l && (t.found env k).elim false fun pokey =>
        passesCheck env.lib (checkedImage env name k l pokey) p) = r.passed env name i l p :=
    fun _ => rfl
  rw [← hany, ← hany, Bool.eq_iff_iff, List.any_eq_true, List.any_eq_true]
  constructor
  · rintro ⟨k, hk, hpass⟩
    exact ⟨k, hk, h k (List.mem_range.1 hk) ▸ hpass⟩
  · rintro ⟨k, hk, hpass⟩
    exact ⟨k, hk, (h k (List.mem_range.1 hk)).symm ▸ hpass⟩

/-- Later turns take no mark back. -/
theorem Site.passed_mono {i' : ℕ} (hle : i ≤ i') (h : ∀ k < i, r'.slot k = r.slot k) {l : ℕ}
    {p : DevicePort} (hpass : r.passed env name i l p = true) :
    r'.passed env name i' l p = true := by
  rw [← Site.passed_congr h, Site.passed, List.any_eq_true] at hpass
  obtain ⟨k, hk, hpass⟩ := hpass
  rw [Site.passed, List.any_eq_true]
  exact ⟨k, List.mem_range.2 (by have := List.mem_range.1 hk; omega), hpass⟩

theorem Site.marked_congr (h : ∀ k < i, r'.slot k = r.slot k) (l : ℕ) :
    r'.marked env name i l = r.marked env name i l := by
  funext p
  rw [Site.marked, Site.marked, Site.passed_congr h]

theorem Site.calls_congr (h : ∀ k < i, r'.slot k = r.slot k) {k : ℕ} (hk : k < i) :
    r'.calls env name tables k = r.calls env name tables k := by
  have hmarked : r'.marked env name (k + 1) = r.marked env name (k + 1) :=
    funext fun l => Site.marked_congr (fun k' hk' => h k' (by omega)) l
  rw [Site.calls, Site.calls, h k hk, hmarked]

theorem Site.fits_congr (h : ∀ k < i, r'.slot k = r.slot k) {k : ℕ} (hk : k < i) :
    r'.fits env name tables k = r.fits env name tables k := by
  rw [Site.fits, Site.fits, h k hk]

theorem Site.passesCheck_marked (lib : PoKeysLib) (image : PoKeysDevice) (l : ℕ) (p : DevicePort) :
    passesCheck lib image (r.marked env name i l p) = passesCheck lib image p := by
  unfold Site.marked
  split_ifs <;> rfl

/-- The marks do not matter for the texts. -/
theorem casesPass_marked (lib : PoKeysLib) (image : PoKeysDevice) (l : ℕ) (ps : List DevicePort) :
    casesPass lib image (ps.map (r.marked env name i l)) = casesPass lib image ps := by
  have htype : ∀ p, (r.marked env name i l p).type = p.type := fun p => by
    unfold Site.marked
    split_ifs <;> rfl
  rw [casesPass, List.all_map]
  refine congrArg (List.all ps) (funext fun p => ?_)
  rw [Function.comp_apply, htype, Site.passesCheck_marked]

/-- One more turn. -/
theorem Site.passed_succ (l : ℕ) (p : DevicePort) :
    r.passed env name (i + 1) l p = (r.passed env name i l p || (r.slot i).elim false fun t =>
      t.source == l && (t.found env i).elim false fun pokey =>
        passesCheck env.lib (checkedImage env name i l pokey) p) := by
  rw [Site.passed, List.range_succ, List.any_append, List.any_cons, List.any_nil, Bool.or_false]
  rfl

/-- A slot that is not connected has marked nothing. -/
theorem Site.marked_succ_of_idle (h : ∀ t, r.slot i = some t → t.found env i = none) (l : ℕ) :
    r.marked env name (i + 1) l = r.marked env name i l := by
  have hnothing : ∀ p, r.passed env name (i + 1) l p = r.passed env name i l p := by
    intro p
    rw [Site.passed_succ]
    cases ht : r.slot i with
    | none => simp
    | some t => simp [h t ht]
  funext p
  rw [Site.marked, Site.marked, hnothing]

/-- A connected one has marked the records of its device that passed its check. -/
theorem Site.marked_succ_of_found {t : Slot} {pokey : PoKeysDevice} (ht : r.slot i = some t)
    (hfound : t.found env i = some pokey) (l : ℕ) (p : DevicePort) :
    r.marked env name (i + 1) l p =
      if t.source = l then
        validated env.lib (checkedImage env name i l pokey) (r.marked env name i l p)
      else r.marked env name i l p := by
  rw [validated, Site.passesCheck_marked]
  simp only [Site.marked, Site.passed_succ, ht, hfound, Option.elim_some]
  by_cases hl : t.source = l
  · simp only [hl, beq_self_eq_true, Bool.true_and, if_true, Bool.or_eq_true]
    by_cases hp : passesCheck env.lib (checkedImage env name i l pokey) p = true
    · simp only [hp, or_true, if_true]
      split_ifs <;> rfl
    · simp only [hp, or_false, if_false, Bool.false_eq_true]
  · have hne : (t.source == l) = false := beq_eq_false_iff_ne.2 hl
    simp only [hne, Bool.false_and, Bool.or_false, if_neg hl]

/-- A turn that brings up nothing. -/
theorem Explained.skipped (h : Explained env name serial tables n i r) (k : ℕ) :
    Explained env name serial tables n (i + 1) { r with brk := r.brk + k } := by
  -- the slot of the turn is not connected, for the connected ones belong to earlier turns
  have hidle : ∀ t, r.slot i = some t → t.found env i = none := by
    intro t ht
    cases himage : t.image with
    | none => exact Slot.found_of_idle himage i
    | some image =>
      have hlt := (h.up i t image ht himage).1
      omega
  have hcalls : r.calls env name tables i = [] := by
    rw [Site.calls]
    cases ht : r.slot i with
    | none => rfl
    | some t => rw [Option.elim_some, hidle t ht]; rfl
  have hfits : r.fits env name tables i = true := by
    rw [Site.fits]
    cases ht : r.slot i with
    | none => rfl
    | some t => rw [Option.elim_some, hidle t ht]; rfl
  refine ⟨h.filled, h.source, h.idle, fun k t image ht himage => ?_, fun l => ?_, ?_, ?_⟩
  · obtain ⟨hlt, hrest⟩ := h.up k t image ht himage
    exact ⟨by omega, hrest⟩
  · show r.ports l = _
    rw [h.ports l]
    exact congrArg (fun f => (tables l).map f) (Site.marked_succ_of_idle hidle l).symm
  · show r.sent = (List.range (i + 1)).flatMap (r.calls env name tables)
    rw [List.range_succ, List.flatMap_append, List.flatMap_singleton, hcalls, List.append_nil,
      ← h.sent]
  · show r.textsFit = (List.range (i + 1)).all (r.fits env name tables)
    rw [List.range_succ, List.all_append, List.all_cons, List.all_nil, hfits, ← h.texts]
    simp

/-- A turn that brings up a copy of the device `l`. -/
theorem Explained.broughtUp (h : Explained env name serial tables n i r) {l : ℕ} (hl : l < n)
    {nd : NetworkDeviceSummary} (hnd : env.network[i]? = some nd)
    (hserial : serial l = snprintfD nd.serialNumber) {pokey : PoKeysDevice}
    (hconnect : env.connect i = some pokey)
    (hrun : (siteBringUp env name i l r.brk { pokey with addr := r.brk + 1 }).run
      { r with brk := r.brk + 2 } = .ok () r') :
    Explained env name serial tables n (i + 1) r' := by
  obtain ⟨ports, hports, -, hr'⟩ := siteBringUp_ok hrun
  let t : Slot := ⟨l, r.brk,
    some (appliedImage env name i l { pokey with addr := r.brk + 1 } ports)⟩
  have hself : r'.slot i = some t := by rw [hr']; exact Function.update_self ..
  have hother : ∀ k, k ≠ i → r'.slot k = r.slot k := by
    intro k hk
    rw [hr']
    exact Function.update_of_ne hk ..
  have hearlier : ∀ k < i, r'.slot k = r.slot k := fun k hk => hother k (by omega)
  have hportsSelf : r'.ports l = ports := by rw [hr']; exact Function.update_self ..
  have hportsOther : ∀ l', l ≠ l' → r'.ports l' = r.ports l' := by
    intro l' hl'
    rw [hr']
    exact Function.update_of_ne hl'.symm ..
  have hfound : t.found env i = some { pokey with addr := r.brk + 1 } := by
    rw [Slot.found, hconnect]
    rfl
  -- the marks after the turn are those the check has left
  have hmarked : ∀ l', r'.ports l' = (tables l').map (r'.marked env name (i + 1) l') := by
    intro l'
    have hstep : ∀ p, r'.marked env name (i + 1) l' p =
        if l = l' then validated env.lib
          (checkedImage env name i l' { pokey with addr := r.brk + 1 }) (r.marked env name i l' p)
        else r.marked env name i l' p := by
      intro p
      rw [Site.marked_succ_of_found hself hfound, Site.marked_congr hearlier]
    by_cases hll : l = l'
    · subst hll
      have hbefore : ({ r with brk := r.brk + 2 } : Site).ports l = _ := h.ports l
      rw [hportsSelf, hports, hbefore, List.map_map]
      refine List.map_congr_left fun p _ => ?_
      rw [hstep p, if_pos rfl]
      rfl
    · rw [hportsOther l' hll, h.ports l']
      refine List.map_congr_left fun p _ => ?_
      rw [hstep p, if_neg hll]
  have hown : ports = (tables l).map (r'.marked env name (i + 1) l) := by
    rw [← hmarked l, hportsSelf]
  refine ⟨fun k hk => ?_, fun k t' ht' => ?_, fun k t' ht' himage => ?_,
    fun k t' image ht' himage => ?_, hmarked, ?_, ?_⟩
  · by_cases hki : k = i
    · exact ⟨t, hki ▸ hself⟩
    · rw [hother k hki]
      exact h.filled k hk
  · by_cases hki : k = i
    · rw [hki, hself] at ht'
      rw [← Option.some.inj ht']
      exact hl
    · rw [hother k hki] at ht'
      exact h.source k t' ht'
  · by_cases hki : k = i
    · rw [hki, hself] at ht'
      rw [← Option.some.inj ht'] at himage
      cases himage
    · rw [hother k hki] at ht'
      exact h.idle k t' ht' himage
  · by_cases hki : k = i
    · subst hki
      rw [hself] at ht'
      rw [← Option.some.inj ht'] at himage ⊢
      cases himage
      exact ⟨by omega, nd, _, hnd, hserial, hfound, by rw [← hown]⟩
    · rw [hother k hki] at ht'
      obtain ⟨hlt, nd', pokey', hnd', hs, hf, himg⟩ := h.up k t' image ht' himage
      refine ⟨by omega, nd', pokey', hnd', hs, hf, ?_⟩
      rw [himg, Site.marked_congr fun k' hk' => hearlier k' (by omega)]
  · have hcalls : r'.calls env name tables i =
        turnCalls env name i l { pokey with addr := r.brk + 1 } ports := by
      rw [Site.calls, hself, Option.elim_some, hfound, Option.elim_some, hown]
    have hbefore : (List.range i).flatMap (r'.calls env name tables) =
        (List.range i).flatMap (r.calls env name tables) := by
      refine List.flatMap_congr fun k hk => Site.calls_congr hearlier ?_
      exact List.mem_range.1 hk
    rw [List.range_succ, List.flatMap_append, List.flatMap_singleton, hbefore, hcalls, ← h.sent,
      hr']
  · have hfits : r'.fits env name tables i = casesPass env.lib
        (checkedImage env name i l { pokey with addr := r.brk + 1 }) (r.ports l) := by
      rw [Site.fits, hself, Option.elim_some, hfound, Option.elim_some, h.ports, casesPass_marked]
    have hbefore : (List.range i).all (r'.fits env name tables) =
        (List.range i).all (r.fits env name tables) := by
      rw [Bool.eq_iff_iff, List.all_eq_true, List.all_eq_true]
      exact forall₂_congr fun k hk => by rw [Site.fits_congr hearlier (List.mem_range.1 hk)]
    rw [List.range_succ, List.all_append, List.all_cons, List.all_nil, hbefore, hfits, ← h.texts,
      Bool.and_true, hr']

/-- Every turn keeps it. -/
theorem Explained.turn (h : Explained env name serial tables n i r) {nd : NetworkDeviceSummary}
    (hnd : env.network[i]? = some nd)
    (hturn : SiteTurn env serial name i (snprintfD nd.serialNumber) r r') :
    Explained env name serial tables n (i + 1) r' := by
  cases hturn with
  | skipped k _ hr' => exact hr' ▸ h.skipped k
  | up j t pokey hslot hserial hconnect hrun =>
    exact h.broughtUp (h.source j t hslot) hnd hserial hconnect hrun

end History

/-! ### From the configuration on -/

section Loaded

variable {Setting : Type} [LibConfig Setting]

/-- The configured site explains itself. -/
theorem explained_loaded (env : Env) (serial name : ℕ → String) (gs : List Setting) :
    Explained env name serial (Site.loaded gs).ports gs.length 0 (.loaded gs) where
  filled := fun k hk => ⟨⟨k, k, none⟩, if_pos hk⟩
  source := fun k t ht => by
    simp only [Site.loaded] at ht
    split_ifs at ht with hk
    cases ht
    exact hk
  idle := fun k t ht _ => by
    simp only [Site.loaded] at ht
    split_ifs at ht with hk
    cases ht
    exact ⟨hk, rfl⟩
  up := fun k t image ht himage => by
    simp only [Site.loaded] at ht
    split_ifs at ht with hk
    cases ht
    cases himage
  ports := fun l => by
    have hid : (Site.loaded gs).marked env name 0 l = id := funext fun p => rfl
    rw [hid, List.map_id]
  sent := rfl
  texts := rfl

/-- **Every state the loop reaches is explained by its slots.** -/
theorem siteLoop_explained {env : Env} {serial name : ℕ → String} {gs : List Setting} {i : ℕ}
    {r : Site} (hi : i ≤ env.network.length)
    (h : (siteLoop env serial name i).run (.loaded gs) = .ok () r) :
    Explained env name serial (Site.loaded gs).ports gs.length i r := by
  refine siteLoop_invariant (Explained env name serial (Site.loaded gs).ports gs.length)
    (explained_loaded env serial name gs) (fun i hi r r' hI hturn => ?_) hi h
  exact hI.turn (List.getElem?_eq_getElem hi) hturn

end Loaded

end SimPokey
