import SimPokey.Startup.Ownership
import SimPokey.Startup.Shutdown

/-!
# Interrupts during startup

An interrupt asks whether to quit: `intHandler` ignores further interrupts, reads one character,
and either shuts down and exits or installs itself again and reads one more character, the end of
the line.  A session is any sequence of calls of the startup loop and interrupts.  The answer to
the interrupt `k` is the character `2 * k` of the input.  Until one confirms, the process is where
its calls alone would have taken it; then it stops at the loop of the first record, which nobody
has set, and only with no device on the network does it exit (`session_quits_iff`).
-/

namespace SimPokey

open FaultState Stepwise

/-- What `SIGINT` leads to. -/
inductive Disposition
  | ignore
  | handler
  deriving DecidableEq

/-- The process: its globals, the call of the startup loop it comes to, the rest of its input, and
whether it still runs. -/
structure Session where
  world : World
  position : Position
  stdin : List Char
  sigint : Disposition
  running : Bool

/-- What happens to the process. -/
inductive Event
  | call
  | interrupt
  deriving DecidableEq

/-- `getchar`, stored in a `char`: at the end of the input that is `(char)EOF`. -/
def getchar : List Char → Char × List Char
  | [] => (Char.ofNat 255, [])
  | c :: stdin => (c, stdin)

/-- A step of the globals, as a step of the process. -/
def onWorld {α : Type} (x : WorldRun α) : Run Fault Session α :=
  onPart Session.world (fun s w => { s with world := w }) x

theorem onWorld_of_ok {α : Type} {x : WorldRun α} {s : Session} {a : α} {w : World}
    (h : x.run s.world = .ok a w) : (onWorld x).run s = .ok a { s with world := w } :=
  onPart_of_ok h

theorem onWorld_of_error {α : Type} {x : WorldRun α} {s : Session} {e : Fault} {w : World}
    (h : x.run s.world = .error e w) : (onWorld x).run s = .error e { s with world := w } :=
  onPart_of_error h

/-- `exit(0)`. -/
def Session.exit : Run Fault Session Unit := fun s => .ok () { s with running := false }

/-- The next call of the startup loop. -/
def Session.call (env : Env) : Run Fault Session Unit := fun s =>
  (do
    let position ← onWorld (s.position.next env)
    fun s => .ok () { s with position := position } : Run Fault Session Unit).run s

/-- `intHandler`, with its calls of `signal`, `getchar` and `exit`. -/
def Session.sigintHandler : Run Fault Session Unit := fun s =>
  let c := getchar s.stdin
  let s := { s with sigint := .ignore, stdin := c.2 }
  if c.1 = 'y' ∨ c.1 = 'Y' then
    (do onWorld (intHandler c.1); Session.exit : Run Fault Session Unit).run s
  else .ok () { s with sigint := .handler, stdin := (getchar s.stdin).2 }

/-- What an event does to the process. -/
def Session.step (env : Env) : Event → Run Fault Session Unit
  | .call => fun s => if s.running then (call env).run s else .ok () s
  | .interrupt => fun s =>
      if s.running = true ∧ s.sigint = .handler then sigintHandler.run s else .ok () s

/-- A sequence of events. -/
def session (env : Env) (events : List Event) : Run Fault Session Unit :=
  events.foldlM (fun _ e => Session.step env e) ()

/-- The process before the startup loop. -/
def Session.start (w : World) (stdin : List Char) : Session :=
  ⟨w, .start, stdin, .handler, true⟩

/-- The answer that the interrupt `k` reads. -/
def answer (stdin : List Char) (k : ℕ) : Char := (getchar (stdin.drop (2 * k))).1

/-- A character that confirms the quit. -/
def Confirms (c : Char) : Prop := c = 'y' ∨ c = 'Y'

instance (c : Char) : Decidable (Confirms c) := inferInstanceAs (Decidable (c = 'y' ∨ c = 'Y'))

/-- An answer of two letters puts the next one out of step. -/
example : answer "no\ny\n".toList 0 = 'n' ∧ answer "no\ny\n".toList 1 = '\n' := by decide

theorem getchar_snd (stdin : List Char) : (getchar stdin).2 = stdin.drop 1 := by
  cases stdin <;> rfl

/-! ### Steps -/

section Steps

variable {env : Env}

theorem session_concat_of_ok {events : List Event} {e : Event} {s s' : Session}
    (h : (session env events).run s = .ok () s') :
    (session env (events ++ [e])).run s = (Session.step env e).run s' := by
  have hsplit : session env (events ++ [e]) =
      session env events >>= fun _ => Session.step env e := by
    simp [session]
  rw [hsplit, bind_of_ok h]

theorem session_concat_of_error {events : List Event} {e : Event} {f : Fault} {s s' : Session}
    (h : (session env events).run s = .error f s') :
    (session env (events ++ [e])).run s = .error f s' := by
  have hsplit : session env (events ++ [e]) =
      session env events >>= fun _ => Session.step env e := by
    simp [session]
  rw [hsplit, bind_of_error h]

/-- A process that has exited stays so. -/
theorem step_of_exited {s : Session} (h : s.running = false) (e : Event) :
    (Session.step env e).run s = .ok () s := by
  cases e with
  | call => exact if_neg (by simp [h])
  | interrupt => exact if_neg (by simp [h])

/-- A call of a running process. -/
theorem step_call {s : Session} (h : s.running = true) {p : Position} {w : World}
    (hnext : (s.position.next env).run s.world = .ok p w) :
    (Session.step env .call).run s = .ok () { s with world := w, position := p } := by
  show (if s.running = true then (Session.call env).run s else .ok () s) = _
  rw [if_pos h]
  exact bind_of_ok (onWorld_of_ok hnext)

/-- A declined interrupt takes two characters, and that is all. -/
theorem step_interrupt_declined {s : Session} (h : s.running = true) (hsigint : s.sigint = .handler)
    (hanswer : ¬ Confirms (getchar s.stdin).1) :
    (Session.step env .interrupt).run s = .ok () { s with stdin := s.stdin.drop 2 } := by
  show (if s.running = true ∧ s.sigint = .handler then Session.sigintHandler.run s
    else .ok () s) = _
  rw [if_pos ⟨h, hsigint⟩]
  show (if (getchar s.stdin).1 = 'y' ∨ (getchar s.stdin).1 = 'Y' then _ else _) = _
  have hno : ¬ ((getchar s.stdin).1 = 'y' ∨ (getchar s.stdin).1 = 'Y') := hanswer
  rw [if_neg hno, ← hsigint]
  simp only [getchar_snd, List.drop_drop]

/-- A confirmed one whose handler returns: the process exits. -/
theorem step_interrupt_confirmed {s : Session} (h : s.running = true)
    (hsigint : s.sigint = .handler) (hanswer : Confirms (getchar s.stdin).1) {w : World}
    (hquit : (intHandler (getchar s.stdin).1).run s.world = .ok () w) :
    (Session.step env .interrupt).run s = .ok () { s with
      world := w, stdin := s.stdin.drop 1, sigint := .ignore, running := false } := by
  show (if s.running = true ∧ s.sigint = .handler then Session.sigintHandler.run s
    else .ok () s) = _
  rw [if_pos ⟨h, hsigint⟩]
  show (if (getchar s.stdin).1 = 'y' ∨ (getchar s.stdin).1 = 'Y' then _ else _) = _
  have hyes : (getchar s.stdin).1 = 'y' ∨ (getchar s.stdin).1 = 'Y' := hanswer
  rw [if_pos hyes, ← getchar_snd]
  exact bind_of_ok (onWorld_of_ok (s := { s with sigint := .ignore, stdin := (getchar s.stdin).2 })
    hquit)

/-- A confirmed one whose handler stops. -/
theorem step_interrupt_stopped {s : Session} (h : s.running = true)
    (hsigint : s.sigint = .handler) (hanswer : Confirms (getchar s.stdin).1) {e : Fault} {w : World}
    (hquit : (intHandler (getchar s.stdin).1).run s.world = .error e w) :
    (Session.step env .interrupt).run s = .error e { s with
      world := w, stdin := s.stdin.drop 1, sigint := .ignore } := by
  show (if s.running = true ∧ s.sigint = .handler then Session.sigintHandler.run s
    else .ok () s) = _
  rw [if_pos ⟨h, hsigint⟩]
  show (if (getchar s.stdin).1 = 'y' ∨ (getchar s.stdin).1 = 'Y' then _ else _) = _
  have hyes : (getchar s.stdin).1 = 'y' ∨ (getchar s.stdin).1 = 'Y' := hanswer
  rw [if_pos hyes, ← getchar_snd]
  exact bind_of_error (onWorld_of_error
    (s := { s with sigint := .ignore, stdin := (getchar s.stdin).2 }) hquit)

end Steps

/-! ### Runs -/

/-- When the whole startup loop returns, so do its first calls. -/
theorem startupSteps_of_loop {env : Env} {w₀ w : World}
    (h : (startupLoop env env.network.length).run w₀ = .ok () w) (n : ℕ) :
    ∃ p w', (startupSteps env n).run w₀ = .ok p w' := by
  rw [← (startup_stepwise env n).1] at h
  obtain ⟨p, w', hsteps, -⟩ := bind_ok_iff.1 h
  exact ⟨p, w', hsteps⟩

/-- And ten of them for each device are all of it. -/
theorem world_of_steps {env : Env} {w₀ w w' : World} {p : Position} {n : ℕ}
    (h : (startupLoop env env.network.length).run w₀ = .ok () w)
    (hn : 10 * env.network.length ≤ n) (hsteps : (startupSteps env n).run w₀ = .ok p w') :
    w' = w := by
  obtain ⟨k, rfl⟩ := Nat.exists_eq_add_of_le hn
  rw [← (startup_stepwise env k).2, bind_of_ok hsteps] at h
  cases h
  rfl

/-- One of the answers confirms. -/
def Quits (stdin : List Char) (events : List Event) : Prop :=
  ∃ k < events.count .interrupt, Confirms (answer stdin k)

/-- The first interrupt that was confirmed found the world `w`, which the calls before it alone
lead to. -/
def ConfirmedAt (env : Env) (w₀ : World) (stdin : List Char) (events : List Event) (w : World) :
    Prop :=
  ∃ pre post p, events = pre ++ .interrupt :: post ∧
    (∀ j < pre.count .interrupt, ¬ Confirms (answer stdin j)) ∧
    Confirms (answer stdin (pre.count .interrupt)) ∧
    (startupSteps env (pre.count .call)).run w₀ = .ok p w

/-- What a session from the world `w₀` with the input `stdin` has come to after some events. -/
inductive SessionAt (env : Env) (w₀ : World) (stdin : List Char) (events : List Event) :
    EStateM.Result Fault Session Unit → Prop
  /-- All interrupts were declined. -/
  | running (w : World) (p : Position) (k : ℕ) (interrupts : k = events.count .interrupt)
      (declined : ∀ j < k, ¬ Confirms (answer stdin j))
      (calls : (startupSteps env (events.count .call)).run w₀ = .ok p w) :
      SessionAt env w₀ stdin events (.ok () ⟨w, p, stdin.drop (2 * k), .handler, true⟩)
  /-- One was confirmed, and there is nothing to shut down. -/
  | exited (s : Session) (w : World) (confirmed : ConfirmedAt env w₀ stdin events w)
      (nobody : env.network = []) (freed : s.world = { w with shutdown := [.freeSimConfig] })
      (exited : s.running = false) : SessionAt env w₀ stdin events (.ok () s)
  /-- One was confirmed, and the first record has no loop. -/
  | stopped (s : Session) (confirmed : ConfirmedAt env w₀ stdin events s.world)
      (somebody : env.network ≠ []) (untouched : s.world.shutdown = []) :
      SessionAt env w₀ stdin events (.error .wildLoop s)

section Runs

variable {env : Env} {n : ℕ} {w₀ w₁ : World} {stdin : List Char} {events : List Event}

theorem ConfirmedAt.quits {w : World} (h : ConfirmedAt env w₀ stdin events w) :
    Quits stdin events := by
  obtain ⟨pre, post, p, rfl, -, hconfirms, -⟩ := h
  exact ⟨_, by simp, hconfirms⟩

theorem ConfirmedAt.concat {w : World} (h : ConfirmedAt env w₀ stdin events w) (e : Event) :
    ConfirmedAt env w₀ stdin (events ++ [e]) w := by
  obtain ⟨pre, post, p, rfl, hrest⟩ := h
  exact ⟨pre, post ++ [e], p, by simp, hrest⟩

/-- The next event, in a process that runs. -/
theorem SessionAt.event {w : World} {p : Position} {k : ℕ}
    (hstart : Underway env n .start w₀ ∧ Silent .start w₀) (hm : env.network.length ≤ n)
    (hloop : (startupLoop env env.network.length).run w₀ = .ok () w₁)
    (interrupts : k = events.count .interrupt) (declined : ∀ j < k, ¬ Confirms (answer stdin j))
    (calls : (startupSteps env (events.count .call)).run w₀ = .ok p w) (e : Event) :
    SessionAt env w₀ stdin (events ++ [e])
      ((Session.step env e).run ⟨w, p, stdin.drop (2 * k), .handler, true⟩) := by
  cases e with
  | call =>
    have hinterrupts : k = (events ++ [Event.call]).count Event.interrupt := by simp [interrupts]
    have hcalls : (events ++ [Event.call]).count Event.call = events.count Event.call + 1 := by simp
    obtain ⟨p', w', hsteps⟩ := startupSteps_of_loop hloop (events.count .call + 1)
    have hnext : (p.next env).run w = .ok p' w' := by
      rw [← hsteps]
      exact (steps_succ_of_ok calls).symm
    rw [step_call (s := ⟨w, p, stdin.drop (2 * k), .handler, true⟩) rfl hnext]
    exact .running w' p' k hinterrupts declined (hcalls ▸ hsteps)
  | interrupt =>
    by_cases hanswer : Confirms (answer stdin k)
    · obtain ⟨hunderway, hsilent⟩ := steps_owned hstart calls
      have hconfirmed : ConfirmedAt env w₀ stdin (events ++ [.interrupt]) w := by
        rw [interrupts] at declined hanswer
        exact ⟨events, [], p, rfl, declined, hanswer, calls⟩
      by_cases hnobody : env.network = []
      · have hnumber : w.numberOfDevices = 0 := by
          rw [hunderway.held.numberOfDevices, hnobody]
          rfl
        rw [step_interrupt_confirmed (s := ⟨w, p, stdin.drop (2 * k), .handler, true⟩) rfl rfl
          hanswer (intHandler_of_no_devices hnumber hanswer)]
        refine .exited _ w hconfirmed hnobody ?_ rfl
        rw [hunderway.held.shutdown]
        rfl
      · have hpos : 0 < env.network.length := List.length_pos_of_ne_nil hnobody
        obtain ⟨d, hd⟩ := hunderway.held.filled 0 (by omega)
        rw [step_interrupt_stopped (s := ⟨w, p, stdin.drop (2 * k), .handler, true⟩) rfl rfl
          hanswer (intHandler_stops hd (hsilent.slots 0 d hd)
            (hunderway.held.numberOfDevices.symm ▸ hpos) hanswer)]
        exact .stopped _ hconfirmed hnobody hunderway.held.shutdown
    · rw [step_interrupt_declined (s := ⟨w, p, stdin.drop (2 * k), .handler, true⟩) rfl rfl hanswer]
      have hcalls : (events ++ [Event.interrupt]).count Event.call = events.count Event.call := by
        simp
      have hcount : k + 1 = (events ++ [Event.interrupt]).count Event.interrupt := by
        simp [interrupts]
      have hdeclined : ∀ j < k + 1, ¬ Confirms (answer stdin j) := fun j hj =>
        (Nat.lt_succ_iff_lt_or_eq.1 hj).elim (declined j) fun hj => hj ▸ hanswer
      have hnext : SessionAt env w₀ stdin (events ++ [.interrupt]) _ :=
        .running w p (k + 1) hcount hdeclined (hcalls ▸ calls)
      rwa [Nat.mul_add, ← List.drop_drop] at hnext

theorem session_at (hstart : Underway env n .start w₀ ∧ Silent .start w₀)
    (hm : env.network.length ≤ n)
    (hloop : (startupLoop env env.network.length).run w₀ = .ok () w₁) (stdin : List Char)
    (events : List Event) :
    SessionAt env w₀ stdin events ((session env events).run (.start w₀ stdin)) := by
  induction events using List.reverseRecOn with
  | nil => exact .running w₀ .start 0 rfl (by simp) rfl
  | append_singleton events e ih =>
    cases hrun : (session env events).run (.start w₀ stdin) with
    | ok u s =>
      rw [session_concat_of_ok hrun]
      rw [hrun] at ih
      cases ih with
      | running w p k interrupts declined calls =>
        exact .event hstart hm hloop interrupts declined calls e
      | exited _ w confirmed nobody freed exited =>
        rw [step_of_exited exited]
        exact .exited s w (confirmed.concat e) nobody freed exited
    | error f s =>
      rw [session_concat_of_error hrun]
      rw [hrun] at ih
      cases ih with
      | stopped _ confirmed somebody untouched =>
        exact .stopped s (confirmed.concat e) somebody untouched

end Runs

/-- **A session ends at the first answer that confirms.**  With no more devices on the network than
configured, a startup that would return goes on under any interrupts exactly as long as none of the
answers, every second character of the input, confirms, and is where its calls alone would have
taken it.  Then, with any device on the network, it stops at a loop that nobody has set, before
anything is stopped, disconnected or freed; with none it frees the simulator details and exits. -/
theorem session_quits_iff {Setting : Type} [LibConfig Setting] (root : Setting)
    (junk : ℕ → DeviceJunk) (simJunk : SimulatorJunk) (env : Env)
    (hm : env.network.length ≤ (devicesOf root).length) (w₀ w : World)
    (hbefore : (beforeLoop (some root) junk simJunk env).run World.init = .ok () w₀)
    (hloop : (startupLoop env env.network.length).run w₀ = .ok () w) (stdin : List Char)
    (events : List Event) :
    ((∃ s, (session env events).run (.start w₀ stdin) = .ok () s ∧ s.running = true) ↔
      ¬ Quits stdin events) ∧
    ((∃ s, (session env events).run (.start w₀ stdin) = .ok () s ∧ s.running = false) ↔
      Quits stdin events ∧ env.network = []) ∧
    ((∃ s, (session env events).run (.start w₀ stdin) = .error .wildLoop s) ↔
      Quits stdin events ∧ env.network ≠ []) ∧
    (∀ s, (session env events).run (.start w₀ stdin) = .ok () s → s.running = true →
      s.sigint = .handler ∧ s.stdin = stdin.drop (2 * events.count .interrupt) ∧
      (startupSteps env (events.count .call)).run w₀ = .ok s.position s.world ∧
      (10 * env.network.length ≤ events.count .call → s.world = w)) ∧
    (∀ s, (session env events).run (.start w₀ stdin) = .ok () s → s.running = false →
      ∃ w₁, ConfirmedAt env w₀ stdin events w₁ ∧
        s.world = { w₁ with shutdown := [.freeSimConfig] }) ∧
    ∀ e s, (session env events).run (.start w₀ stdin) = .error e s → e = .wildLoop ∧
      ConfirmedAt env w₀ stdin events s.world ∧ s.world.shutdown = [] := by
  have hat := session_at (underway_start hbefore) hm hloop stdin events
  generalize (session env events).run (.start w₀ stdin) = result at hat ⊢
  cases hat with
  | running w₁ p k interrupts declined calls =>
    subst interrupts
    have hnot : ¬ Quits stdin events := fun ⟨k, hk, hconfirms⟩ => declined k hk hconfirms
    refine ⟨iff_of_true ⟨_, rfl, rfl⟩ hnot, iff_of_false ?_ fun h => hnot h.1,
      iff_of_false (fun ⟨s, h⟩ => by cases h) fun h => hnot h.1, ?_, ?_, fun e s h => by cases h⟩
    · rintro ⟨s, h, hexited⟩
      cases h
      cases hexited
    · intro s h _
      cases h
      exact ⟨rfl, rfl, calls, fun hn => world_of_steps hloop hn calls⟩
    · intro s h hexited
      cases h
      cases hexited
  | exited s w₁ confirmed nobody freed exited =>
    have hnot : ∀ s', EStateM.Result.ok (ε := Fault) () s = .ok () s' → s'.running ≠ true := by
      intro s' h hrunning
      cases h
      rw [exited] at hrunning
      cases hrunning
    refine ⟨iff_of_false (fun ⟨s', h, hrunning⟩ => hnot s' h hrunning) (not_not.2 confirmed.quits),
      iff_of_true ⟨s, rfl, exited⟩ ⟨confirmed.quits, nobody⟩,
      iff_of_false (fun ⟨s, h⟩ => by cases h) fun h => h.2 nobody,
      fun s' h hrunning => absurd hrunning (hnot s' h), fun s' h _ => ?_, fun e s h => by cases h⟩
    cases h
    exact ⟨w₁, confirmed, freed⟩
  | stopped s confirmed somebody untouched =>
    refine ⟨iff_of_false (fun ⟨s, h, _⟩ => by cases h) (not_not.2 confirmed.quits),
      iff_of_false (fun ⟨s, h, _⟩ => by cases h) fun h => somebody h.2,
      iff_of_true ⟨s, rfl⟩ ⟨confirmed.quits, somebody⟩, fun s h _ => (nomatch h),
      fun s h _ => (nomatch h), fun e s' h => ?_⟩
    cases h
    exact ⟨rfl, confirmed, untouched⟩

/-- The first interrupt is declined, the second one confirmed. -/
theorem session_quits_iff_second : ∃ s,
    (session inOrder [.call, .interrupt, .call, .call, .interrupt, .call]).run
      (.start (final twoLoaded) "n\ny\n".toList) = .error .wildLoop s := by
  have hbefore : twoLoaded = .ok () (final twoLoaded) :=
    ok_of_value (by decide +kernel : value twoLoaded = some ())
  have hloop := ok_of_value (by decide +kernel :
    value ((startupLoop inOrder inOrder.network.length).run (final twoLoaded)) = some ())
  obtain ⟨-, -, hstops, -⟩ := session_quits_iff twoDevices (fun _ => .cleared)
    ⟨none, none, 0, 0⟩ inOrder (by decide) _ _ hbefore hloop "n\ny\n".toList
    [.call, .interrupt, .call, .call, .interrupt, .call]
  exact hstops.2 ⟨⟨1, by decide, by decide⟩, by decide⟩

end SimPokey
