import SimPokey.Lib.CString
import SimPokey.Pokey

/-!
# The name of a device

`syncDeviceName` compares the in-memory `DeviceName` with the configured name and, when they
differ, first copies `maxDeviceNameLength` characters into it and then sends it.

* `deviceName_reads_iff`: after a call that succeeded, `DeviceName` reads as the configured name
  cut to `maxDeviceNameLength` exactly when the name is shorter or the next character already was
  the terminator.
* `safeToRetry_iff`: a sequence of calls brings the name to the hardware exactly when the first
  call that has something to send succeeds; after a failure the copy already made hides the
  difference from the next call.
-/

namespace SimPokey

open FaultState CString

/-! ### Names in memory -/

theorem strncmpEq_iff (n : ℕ) (a b : ℕ → Char) : strncmpEq a b n = true ↔ AgreeTo nul n a b := by
  induction n generalizing a b with
  | zero => exact iff_of_true rfl fun i hi => absurd hi (Nat.not_lt_zero i)
  | succ n ih =>
    rw [agreeTo_succ, strncmpEq]
    by_cases h0 : a 0 = b 0
    · by_cases hz : b 0 = nul
      · simp [h0, hz]
      · simp [h0, hz, ih]
    · simp [h0]

/-- The configured name, read from its first character on. -/
theorem reads_cMemory {s : String} (h : nul ∉ s.toList) (after : ℕ → Char) :
    Reads nul (cMemory s after) s.toList where
  char := fun i c hc => by simp only [cMemory, hc]
  term := by simp [cMemory]
  clean := h

/-- What follows the configured name is never compared. -/
theorem agreeTo_cMemory (s : String) (after after' : ℕ → Char) (n : ℕ) :
    AgreeTo nul n (cMemory s after) (cMemory s after') := by
  intro i _ hgoes
  have hle : i ≤ s.toList.length := by
    by_contra hlt
    exact hgoes s.toList.length (by omega) (by simp [cMemory])
  rcases Nat.lt_or_eq_of_le hle with hlt | rfl
  · simp only [cMemory, List.getElem?_eq_getElem hlt]
  · simp [cMemory]

/-- `DeviceName` agrees with the configured name, as far as it is compared. -/
def Agrees (name : String) (deviceName : ℕ → Char) : Prop :=
  AgreeTo nul maxDeviceNameLength deviceName (cMemory name fun _ => nul)

theorem strncmpEq_iff_agrees (name : String) (after deviceName : ℕ → Char) :
    strncmpEq deviceName (cMemory name after) maxDeviceNameLength = true ↔
      Agrees name deviceName := by
  rw [strncmpEq_iff]
  constructor
  · intro h
    exact h.trans (agreeTo_cMemory name after _ _)
  · intro h
    exact h.trans (agreeTo_cMemory name _ after _)

/-! ### One call -/

/-- The image with the configured name copied in. -/
def PoKeysDevice.renamed (pokey : PoKeysDevice) (name : String) (after : ℕ → Char) :
    PoKeysDevice :=
  { pokey with deviceName := copy maxDeviceNameLength (cMemory name after) pokey.deviceName }

theorem agrees_renamed (pokey : PoKeysDevice) (name : String) (after : ℕ → Char) :
    Agrees name (pokey.renamed name after).deviceName :=
  (agreeTo_copy _ _ _).trans (agreeTo_cMemory name after _ _)

section Call

variable {d : Device} {pokey : PoKeysDevice}

/-- A name that already agrees is left alone. -/
theorem syncDeviceName_of_agrees (hpokey : d.pokey = some pokey)
    (h : Agrees d.name pokey.deviceName) (after : ℕ → Char) (ret : ℤ) (m : Memory) :
    (syncDeviceName after ret d).run m = .ok (1, d) m := by
  unfold syncDeviceName
  rw [bind_of_ok (pokeyOf_run hpokey m)]
  dsimp only
  rw [if_pos ((strncmpEq_iff_agrees d.name after pokey.deviceName).2 h)]
  rfl

/-- A name that differs is copied into the image, the image is sent, and the result of the call
decides the result. -/
theorem syncDeviceName_of_differs (hpokey : d.pokey = some pokey)
    (h : ¬ Agrees d.name pokey.deviceName) (after : ℕ → Char) (ret : ℤ) (m : Memory) :
    (syncDeviceName after ret d).run m =
      .ok (if ret = pkOk then 1 else -1, { d with pokey := some (pokey.renamed d.name after) })
        { m with sent := m.sent ++ [.deviceNameSet (pokey.renamed d.name after)] } := by
  unfold syncDeviceName
  rw [bind_of_ok (pokeyOf_run hpokey m)]
  dsimp only
  rw [if_neg fun heq => h ((strncmpEq_iff_agrees d.name after pokey.deviceName).1 heq)]
  rfl

/-- After a call with a name that is sent successfully, or that needs no sending, the image agrees
with the configured name; nothing beyond `maxDeviceNameLength` characters has changed. -/
theorem syncDeviceName_succeeds (hpokey : d.pokey = some pokey) (after : ℕ → Char) (m : Memory) :
    ∃ pokey' m', (syncDeviceName after pkOk d).run m =
        .ok (1, { d with pokey := some pokey' }) m' ∧
      Agrees d.name pokey'.deviceName ∧
      ∀ k, maxDeviceNameLength ≤ k → pokey'.deviceName k = pokey.deviceName k := by
  by_cases h : Agrees d.name pokey.deviceName
  · refine ⟨pokey, m, ?_, h, fun _ _ => rfl⟩
    rw [syncDeviceName_of_agrees hpokey h, ← hpokey]
  · refine ⟨pokey.renamed d.name after, _, syncDeviceName_of_differs hpokey h after pkOk m,
      agrees_renamed pokey d.name after, fun k hk => ?_⟩
    exact if_neg (by omega)

end Call

/-! ### Reading the name back -/

/-- **The name as it is read back.** -/
theorem deviceName_reads_iff {d : Device} {pokey : PoKeysDevice} (hpokey : d.pokey = some pokey)
    (hname : nul ∉ d.name.toList) (after : ℕ → Char) (m : Memory) :
    ∃ pokey' m', (syncDeviceName after pkOk d).run m =
        .ok (1, { d with pokey := some pokey' }) m' ∧
      (Reads nul pokey'.deviceName (d.name.toList.take maxDeviceNameLength) ↔
        d.name.toList.length < maxDeviceNameLength ∨
          pokey.deviceName maxDeviceNameLength = nul) := by
  obtain ⟨pokey', m', hrun, hagrees, htail⟩ := syncDeviceName_succeeds hpokey after m
  refine ⟨pokey', m', hrun, ?_⟩
  rw [reads_take_iff hagrees (reads_cMemory hname _), htail _ le_rfl]

/-- An image with this name. -/
def imageNamed (name : String) : PoKeysDevice :=
  { PoKeysDevice.cleared 55 with deviceName := cMemory name fun _ => nul }

/-- A device with this configured name, connected to an image with that one. -/
def deviceNamed (name imageName : String) : Device :=
  { Device.cleared with name := name, pokey := some (imageNamed imageName) }

theorem deviceName_reads_short :
    ∃ pokey' m', (syncDeviceName (fun _ => 'x') pkOk (deviceNamed "Panel" "PoKeys57U")).run
        .empty = .ok (1, { deviceNamed "Panel" "PoKeys57U" with pokey := some pokey' }) m' ∧
      Reads nul pokey'.deviceName "Panel".toList := by
  obtain ⟨pokey', m', hrun, hreads⟩ := deviceName_reads_iff
    (d := deviceNamed "Panel" "PoKeys57U") rfl (by decide) (fun _ => 'x') .empty
  exact ⟨pokey', m', hrun, hreads.2 (Or.inl (by decide))⟩

/-- A name of ten characters over a longer one: the end of the old name is read on. -/
theorem deviceName_reads_old_tail :
    ∃ pokey' m', (syncDeviceName (fun _ => nul) pkOk
        (deviceNamed "MainPanel1" "CenterConsole")).run .empty =
        .ok (1, { deviceNamed "MainPanel1" "CenterConsole" with pokey := some pokey' }) m' ∧
      Reads nul (imageNamed "CenterConsole").deviceName "CenterConsole".toList ∧
      Reads nul pokey'.deviceName "MainPanel1ole".toList ∧
      ¬ Reads nul pokey'.deviceName ("MainPanel1".toList.take maxDeviceNameLength) := by
  obtain ⟨pokey', m', hrun, hagrees, htail⟩ := syncDeviceName_succeeds
    (d := deviceNamed "MainPanel1" "CenterConsole") rfl (fun _ => nul) .empty
  have hold : Reads nul (imageNamed "CenterConsole").deviceName "CenterConsole".toList :=
    reads_cMemory (s := "CenterConsole") (by decide) fun _ => nul
  refine ⟨pokey', m', hrun, hold, ?_, fun h => ?_⟩
  · exact reads_take_append hagrees htail (reads_cMemory (s := "MainPanel1") (by decide) _) hold
      (by decide) (by decide)
  · have hterm : pokey'.deviceName 10 = nul := h.term
    rw [htail 10 le_rfl] at hterm
    exact absurd hterm (by decide)

/-! ### Calls and retries -/

/-- The device in memory, and the name its hardware holds. -/
structure NamedDevice where
  device : Device
  hardware : ℕ → Char

/-- One call of `syncDeviceName`: the characters after the configured name, and the result of
`PK_DeviceNameSet` if it is called. -/
structure SyncCall where
  after : ℕ → Char
  ret : ℤ

/-- What a call returned and sent, and the device before and after it. -/
structure SyncOutcome where
  result : ℤ
  sent : List LibCall
  before : NamedDevice
  after : NamedDevice

/-- `PK_DeviceNameSet`: when it returns `PK_OK`, the hardware holds the name of the image. -/
def nameHeld (ret : ℤ) (hardware : ℕ → Char) : LibCall → ℕ → Char
  | .deviceNameSet pokey => if ret = pkOk then pokey.deviceName else hardware
  | _ => hardware

def syncTurn (s : NamedDevice) (c : SyncCall) : MemRun SyncOutcome := do
  let m ← get
  let named ← syncDeviceName c.after c.ret s.device
  let m' ← get
  let sent := m'.sent.drop m.sent.length
  pure ⟨named.1, sent, s, ⟨named.2, sent.foldl (nameHeld c.ret) s.hardware⟩⟩

/-- The calls one after the other. -/
def syncRun (s : NamedDevice) : List SyncCall → MemRun (List SyncOutcome)
  | [] => pure []
  | c :: calls => do
      let outcome ← syncTurn s c
      let outcomes ← syncRun outcome.after calls
      pure (outcome :: outcomes)

/-- The in-memory `DeviceName`, if there is an image. -/
def NamedDevice.deviceName (s : NamedDevice) : Option (ℕ → Char) :=
  s.device.pokey.map PoKeysDevice.deviceName

/-- What a caller that retries relies on. -/
structure SafeToRetry (name : String) (outcomes : List SyncOutcome) : Prop where
  /-- After a call that returned 1 the hardware agrees with the configured name. -/
  held : ∀ o ∈ outcomes, o.result = 1 → ∀ after,
    strncmpEq o.after.hardware (cMemory name after) maxDeviceNameLength = true
  /-- A call that returned -1 left the in-memory name as it was. -/
  kept : ∀ o ∈ outcomes, o.result = -1 → o.after.deviceName = o.before.deviceName
  /-- Once a call has returned 1, no later call sends the name. -/
  silent : outcomes.Pairwise fun o later => o.result = 1 → later.sent = []

theorem syncTurn_of_ok {s : NamedDevice} {c : SyncCall} {m m' : Memory} {r : ℤ} {d : Device}
    {sent : List LibCall} (hsent : m'.sent = m.sent ++ sent)
    (h : (syncDeviceName c.after c.ret s.device).run m = .ok (r, d) m') :
    (syncTurn s c).run m =
      .ok ⟨r, sent, s, ⟨d, sent.foldl (nameHeld c.ret) s.hardware⟩⟩ m' := by
  have hdrop : m'.sent.drop m.sent.length = sent := by rw [hsent, List.drop_left]
  unfold syncTurn
  rw [bind_of_ok (show (get : MemRun Memory).run m = .ok m m from rfl), bind_of_ok h,
    bind_of_ok (show (get : MemRun Memory).run m' = .ok m' m' from rfl), hdrop]
  rfl

theorem syncRun_cons_of_ok {s : NamedDevice} {c : SyncCall} {calls : List SyncCall}
    {o : SyncOutcome} {os : List SyncOutcome} {m m₁ m₂ : Memory}
    (h : (syncTurn s c).run m = .ok o m₁) (hrest : (syncRun o.after calls).run m₁ = .ok os m₂) :
    (syncRun s (c :: calls)).run m = .ok (o :: os) m₂ := by
  rw [syncRun, bind_of_ok h, bind_of_ok hrest]
  rfl

/-- As long as the image agrees with the configured name, every call returns 1 and nothing
happens: the image is the only thing the calls look at. -/
theorem syncRun_of_agrees {s : NamedDevice} {pokey : PoKeysDevice}
    (hpokey : s.device.pokey = some pokey) (h : Agrees s.device.name pokey.deviceName)
    (calls : List SyncCall) (m : Memory) :
    ∃ outcomes, (syncRun s calls).run m = .ok outcomes m ∧
      outcomes.length = calls.length ∧
      ∀ o ∈ outcomes, o.result = 1 ∧ o.sent = [] ∧ o.after = s := by
  induction calls with
  | nil => exact ⟨[], rfl, rfl, by simp⟩
  | cons c calls ih =>
    obtain ⟨outcomes, hrun, hlen, hall⟩ := ih
    have hsent : m.sent = m.sent ++ [] := (List.append_nil _).symm
    have hturn := syncTurn_of_ok hsent (syncDeviceName_of_agrees hpokey h c.after c.ret m)
    refine ⟨_, syncRun_cons_of_ok hturn hrun, by simp [hlen], ?_⟩
    intro o ho
    rcases List.mem_cons.1 ho with rfl | ho
    · exact ⟨rfl, rfl, rfl⟩
    · exact hall o ho

/-- Outcomes of calls that changed and sent nothing are safe if the hardware agrees. -/
theorem safeToRetry_of_silent {name : String} {s : NamedDevice} {outcomes : List SyncOutcome}
    (hagrees : Agrees name s.hardware)
    (h : ∀ o ∈ outcomes, o.result = 1 ∧ o.sent = [] ∧ o.after = s) : SafeToRetry name outcomes where
  held := fun o ho _ after => by
    rw [(h o ho).2.2]
    exact (strncmpEq_iff_agrees name after _).2 hagrees
  kept := fun o ho hfailed => by
    rw [(h o ho).1] at hfailed
    exact absurd hfailed (by decide)
  silent := List.pairwise_of_forall_mem_list fun _ _ later hlater _ => (h later hlater).2.1

/-- A first call that returned 1, and then calls that sent nothing. -/
theorem SafeToRetry.cons {name : String} {o : SyncOutcome} {outcomes : List SyncOutcome}
    (h : SafeToRetry name outcomes) (hresult : o.result = 1) (hheld : Agrees name o.after.hardware)
    (hsilent : ∀ later ∈ outcomes, later.sent = []) : SafeToRetry name (o :: outcomes) where
  held := by
    intro o' ho' hr after
    rcases List.mem_cons.1 ho' with rfl | ho'
    · exact (strncmpEq_iff_agrees name after _).2 hheld
    · exact h.held o' ho' hr after
  kept := by
    intro o' ho' hfailed
    rcases List.mem_cons.1 ho' with rfl | ho'
    · rw [hresult] at hfailed
      exact absurd hfailed (by decide)
    · exact h.kept o' ho' hfailed
  silent := List.pairwise_cons.2 ⟨fun later hlater _ => hsilent later hlater, h.silent⟩

/-- **Retrying is safe exactly when nothing has to be retried.** -/
theorem safeToRetry_iff {d : Device} {pokey : PoKeysDevice} (hpokey : d.pokey = some pokey)
    (calls : List SyncCall) (m : Memory) :
    ∃ outcomes m', (syncRun ⟨d, pokey.deviceName⟩ calls).run m = .ok outcomes m' ∧
      outcomes.length = calls.length ∧
      (SafeToRetry d.name outcomes ↔
        calls = [] ∨ Agrees d.name pokey.deviceName ∨ ∃ c ∈ calls.head?, c.ret = pkOk) := by
  by_cases hagrees : Agrees d.name pokey.deviceName
  · obtain ⟨outcomes, hrun, hlen, hall⟩ :=
      syncRun_of_agrees (s := ⟨d, pokey.deviceName⟩) hpokey hagrees calls m
    exact ⟨outcomes, m, hrun, hlen,
      iff_of_true (safeToRetry_of_silent hagrees hall) (Or.inr (Or.inl hagrees))⟩
  cases calls with
  | nil =>
    exact ⟨[], m, rfl, rfl, iff_of_true ⟨by simp, by simp, List.Pairwise.nil⟩ (Or.inl rfl)⟩
  | cons c calls =>
    -- the first call copies the name, whatever becomes of it, and the others do nothing
    have hturn := syncTurn_of_ok (s := ⟨d, pokey.deviceName⟩) (c := c) rfl
      (syncDeviceName_of_differs hpokey hagrees c.after c.ret m)
    have hnow := agrees_renamed pokey d.name c.after
    obtain ⟨outcomes, hrun, hlen, hall⟩ := syncRun_of_agrees
      (s := ⟨{ d with pokey := some (pokey.renamed d.name c.after) },
        nameHeld c.ret pokey.deviceName (.deviceNameSet (pokey.renamed d.name c.after))⟩)
      rfl hnow calls _
    refine ⟨_, _, syncRun_cons_of_ok hturn hrun, by simp [hlen], ?_⟩
    constructor
    · intro hsafe
      refine Or.inr (Or.inr ⟨c, rfl, ?_⟩)
      by_contra hret
      have hkept := hsafe.kept _ List.mem_cons_self (if_neg hret)
      rw [NamedDevice.deviceName, NamedDevice.deviceName, hpokey] at hkept
      have hname : (pokey.renamed d.name c.after).deviceName = pokey.deviceName :=
        Option.some.inj hkept
      exact hagrees (hname ▸ hnow)
    · rintro (hnil | hinit | ⟨c', hc', hret⟩)
      · exact absurd hnil (List.cons_ne_nil c calls)
      · exact absurd hinit hagrees
      · obtain rfl : c = c' := Option.some.inj hc'
        have hheld : Agrees d.name (nameHeld c.ret pokey.deviceName
            (.deviceNameSet (pokey.renamed d.name c.after))) := by
          rw [nameHeld, if_pos hret]
          exact hnow
        have hrest : SafeToRetry d.name outcomes := safeToRetry_of_silent hheld hall
        exact hrest.cons (if_pos hret) hheld fun o ho => (hall o ho).2.1

/-- Calls with these results of `PK_DeviceNameSet`, for a device that is to be called `Panel`. -/
def panelRun (rets : List ℤ) : EStateM.Result Fault Memory (List SyncOutcome) :=
  (syncRun ⟨deviceNamed "Panel" "PoKeys57U", (imageNamed "PoKeys57U").deviceName⟩
    (rets.map (⟨fun _ => nul, ·⟩))).run .empty

/-- The name is sent at once, and later calls have nothing to do. -/
theorem safeToRetry_sent :
    ∃ outcomes m', panelRun [pkOk, -10] = .ok outcomes m' ∧ outcomes.length = 2 ∧
      SafeToRetry "Panel" outcomes := by
  obtain ⟨outcomes, m', hrun, hlen, hsafe⟩ := safeToRetry_iff
    (d := deviceNamed "Panel" "PoKeys57U") rfl ([pkOk, -10].map (⟨fun _ => nul, ·⟩)) .empty
  exact ⟨outcomes, m', hrun, hlen, hsafe.2 (Or.inr (Or.inr ⟨_, rfl, rfl⟩))⟩

/-- `PK_DeviceNameSet` fails with `PK_ERR_TRANSFER` and would succeed the next time: the failed
call has changed the in-memory name, and the next call returns 1 without sending anything. -/
theorem safeToRetry_lost :
    ∃ outcomes m', panelRun [-10, pkOk] = .ok outcomes m' ∧
      (∃ o ∈ outcomes, o.result = -1 ∧ o.after.deviceName ≠ o.before.deviceName) ∧
      (∃ o ∈ outcomes, o.result = 1 ∧
        strncmpEq o.after.hardware (cMemory "Panel" fun _ => nul) maxDeviceNameLength = false) ∧
      ¬ SafeToRetry "Panel" outcomes := by
  let outcomes := (value (panelRun [-10, pkOk])).get (by decide)
  have hheld : ∃ o ∈ outcomes, o.result = 1 ∧
      strncmpEq o.after.hardware (cMemory "Panel" fun _ => nul) maxDeviceNameLength = false := by
    decide
  -- the second character tells the two names apart
  have hkept : ∃ o ∈ outcomes, o.result = -1 ∧
      o.after.deviceName.map (fun a => a 1) ≠ o.before.deviceName.map fun a => a 1 := by
    decide
  refine ⟨outcomes, _, ok_of_value (Option.some_get (by decide)).symm, ?_, hheld, fun hsafe => ?_⟩
  · obtain ⟨o, ho, hresult, hname⟩ := hkept
    exact ⟨o, ho, hresult, fun h => hname (by rw [h])⟩
  · obtain ⟨o, ho, hresult, hdiffers⟩ := hheld
    have hagrees := hsafe.held o ho hresult fun _ => nul
    rw [hdiffers] at hagrees
    exact absurd hagrees (by decide)

end SimPokey
