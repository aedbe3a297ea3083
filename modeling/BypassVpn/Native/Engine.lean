import BypassVpn.Lib.Transition

/-!
# Starting and stopping a native engine

`ciadpiStart`, `ciadpi_thread`, `ciadpiStop` and `tun2socksStart`, `tun2socks_thread`,
`tun2socksStop` follow one pattern: a flag `g_running`, a thread `g_thread`, and a stop channel that
the thread opens and publishes in a global variable (`server_fd`, `bridge_stop_pipe[1]`). Any number
of callers, every outcome of the system calls.

* `Engine`: which of the two; `Phase`, `Thread`, `Caller`, `State`, `Label`, `step`.
* `NoLostStop`: nobody waits in `pthread_join` for a thread that was not asked to stop;
  `Orderly`: the calls do not race.
* `Inv`, with one lemma for each kind of step, and **`orderly_no_lost_stop`**.
-/

namespace BypassVpn.Native

open Transition

/-- The two native engines. -/
inductive Engine where
  | ciadpi
  | tun2socks
  deriving DecidableEq, Repr

/-- The progress of an engine thread. -/
inductive Phase where
  /-- Before its channel is open. -/
  | starting
  /-- The listening socket is open, `server_fd` not stored yet. -/
  | opened
  | published
  /-- In `loop_event`, `BReactor_Exec`. -/
  | looping
  | exited
  /-- The channel is closed. -/
  | closed
  /-- `run`, `tun2socks_bridge_run` has returned. -/
  | done
  /-- The thread has cleared `g_running`. -/
  | cleared
  | ended
  deriving DecidableEq, Repr

/-- The thread is in its event loop or can still enter it. -/
def Phase.canLoop : Phase → Bool
  | .starting | .opened | .published | .looping => true
  | _ => false

/-- The thread has not cleared `g_running` yet. -/
def Phase.live : Phase → Bool
  | .cleared | .ended => false
  | _ => true

/-- The channel variable holds the thread's open channel. -/
def Phase.announced : Phase → Bool
  | .published | .looping | .exited => true
  | _ => false

/-- An engine thread. -/
structure Thread where
  phase : Phase := .ended
  /-- The number of the listening socket, of the write end of the pipe. -/
  fd : ℕ := 0
  /-- The listening socket was shut down, a byte is in the pipe. -/
  signalled : Bool := false
  deriving DecidableEq, Repr

/-- Who calls `start` or `stop`, and where it stands. -/
inductive Caller where
  | idle
  /-- `start`: `g_running` was clear. -/
  | configuring
  /-- `start`: before `pthread_create`. -/
  | creating
  /-- `start`: `pthread_create` failed. -/
  | failing
  /-- `stop`: `g_running` was set; before the test of the channel variable. -/
  | testing
  /-- `stop`: before `shutdown(server_fd, …)`, `write(bridge_stop_pipe[1], …)`. -/
  | signalling
  /-- `stop`: before `pthread_join`. -/
  | calling
  /-- `stop`: inside `pthread_join`. -/
  | joining (t : ℕ)
  /-- `stop`: before `g_running = 0`. -/
  | joined
  deriving DecidableEq, Repr

/-- What a descriptor number refers to. -/
inductive Owner where
  | other
  /-- The stop channel of a thread. -/
  | channel (t : ℕ)
  deriving DecidableEq, Repr

/-- The globals of an engine, its threads, its callers, and the descriptors of the process. -/
structure State where
  gRunning : Bool := false
  gThread : Option ℕ := none
  /-- `server_fd`, `bridge_stop_pipe[1]`. -/
  chanVar : Int
  threads : ℕ → Thread := fun _ => {}
  /-- The number of threads created so far. -/
  created : ℕ := 0
  callers : ℕ → Caller := fun _ => .idle
  /-- The process keeps its standard descriptors open. -/
  fds : ℕ → Option Owner := fun d => if d < 3 then some .other else none
  /-- `stop` has signalled a descriptor that is not the channel of `g_thread`. -/
  misfired : Bool := false

/-- `int server_fd;` and `bridge_stop_pipe[2] = { -1, -1 }`. -/
def init : Engine → State
  | .ciadpi => { chanVar := 0 }
  | .tun2socks => { chanVar := -1 }

/-- `server_fd > 0`, and not `bridge_stop_pipe[1] < 0`. -/
def channelTest : Engine → Int → Bool
  | .ciadpi, v => v > 0
  | .tun2socks, v => !(v < 0)

/-- Who takes a step, and how it turns out. -/
inductive Label where
  | startCall (i : ℕ)
  | setFlag (i : ℕ)
  | create (i : ℕ) (ok : Bool)
  | unsetFlag (i : ℕ)
  | stopCall (i : ℕ)
  | testChannel (i : ℕ)
  | signal (i : ℕ)
  | join (i : ℕ)
  | joinReturns (i : ℕ)
  | clearFlag (i : ℕ)
  /-- The thread opens its channel under the number `d`, or fails before. -/
  | openChannel (t : ℕ) (d : Option ℕ)
  | publish (t : ℕ)
  /-- What is left before the loop: `init_pool` and `add_event`, or the rest of the bridge's setup. -/
  | prepare (t : ℕ) (ok : Bool)
  /-- The loop ends, on a stop request or by itself. -/
  | exit (t : ℕ)
  | close (t : ℕ)
  | reset (t : ℕ)
  | clear (t : ℕ)
  | finish (t : ℕ)
  /-- Descriptors of the rest of the process. -/
  | envOpen (d : ℕ)
  | envClose (d : ℕ)
  deriving DecidableEq, Repr

namespace State

variable (s : State)

/-- A caller moves on. -/
def setCaller (i : ℕ) (c : Caller) : State := { s with callers := Function.update s.callers i c }

/-- A thread changes. -/
def setThread (t : ℕ) (x : Thread) : State := { s with threads := Function.update s.threads t x }

/-- A thread moves on. -/
def setPhase (t : ℕ) (p : Phase) : State := s.setThread t { s.threads t with phase := p }

/-- The owner of a descriptor number as the kernel sees it. -/
def ownerOf (v : Int) : Option Owner := if v < 0 then none else s.fds v.toNat

end State

open State in
/-- One step of a caller, of an engine thread or of the rest of the process. -/
def step (e : Engine) (s : State) : Label → Option State
  | .startCall i =>
    if s.callers i = .idle then
      if s.gRunning then some s else some (s.setCaller i .configuring)
    else none
  | .setFlag i =>
    if s.callers i = .configuring then some { s.setCaller i .creating with gRunning := true } else none
  | .create i ok =>
    if s.callers i = .creating then
      if ok then
        some { (s.setThread s.created { phase := .starting }).setCaller i .idle with
          gThread := some s.created, created := s.created + 1 }
      else some (s.setCaller i .failing)
    else none
  | .unsetFlag i =>
    if s.callers i = .failing then some { s.setCaller i .idle with gRunning := false } else none
  | .stopCall i =>
    if s.callers i = .idle then
      if s.gRunning then some (s.setCaller i .testing) else some s
    else none
  | .testChannel i =>
    if s.callers i = .testing then
      some (s.setCaller i (if channelTest e s.chanVar then .signalling else .calling))
    else none
  | .signal i =>
    if s.callers i = .signalling then
      match s.ownerOf s.chanVar with
      | some (.channel t) =>
        some { (s.setThread t { s.threads t with signalled := true }).setCaller i .calling with
          misfired := s.misfired || decide (s.gThread ≠ some t) }
      | _ => some { s.setCaller i .calling with misfired := true }
    else none
  | .join i =>
    if s.callers i = .calling then
      match s.gThread with
      | some t => some (s.setCaller i (.joining t))
      | none => some (s.setCaller i .joined)
    else none
  | .joinReturns i =>
    match s.callers i with
    | .joining t => if (s.threads t).phase = .ended then some (s.setCaller i .joined) else none
    | _ => none
  | .clearFlag i =>
    if s.callers i = .joined then some { s.setCaller i .idle with gRunning := false } else none
  | .openChannel t d =>
    if (s.threads t).phase = .starting then
      match d with
      | none => some (s.setPhase t .done)
      | some d =>
        if s.fds d = none then
          match e with
          | .ciadpi => some { s.setThread t { s.threads t with phase := .opened, fd := d } with
              fds := Function.update s.fds d (some (.channel t)) }
          -- `pipe(bridge_stop_pipe)` stores the numbers itself
          | .tun2socks => some { s.setThread t { s.threads t with phase := .published, fd := d } with
              fds := Function.update s.fds d (some (.channel t)), chanVar := d }
        else none
    else none
  | .publish t =>
    if (s.threads t).phase = .opened then
      some { s.setPhase t .published with chanVar := (s.threads t).fd }
    else none
  | .prepare t ok =>
    if (s.threads t).phase = .published then some (s.setPhase t (if ok then .looping else .exited)) else none
  | .exit t => if (s.threads t).phase = .looping then some (s.setPhase t .exited) else none
  | .close t =>
    if (s.threads t).phase = .exited then
      some { s.setPhase t .closed with fds := Function.update s.fds (s.threads t).fd none }
    else none
  | .reset t =>
    if (s.threads t).phase = .closed then
      match e with
      | .ciadpi => some (s.setPhase t .done)
      | .tun2socks => some { s.setPhase t .done with chanVar := -1 }
    else none
  | .clear t =>
    if (s.threads t).phase = .done then some { s.setPhase t .cleared with gRunning := false } else none
  | .finish t => if (s.threads t).phase = .cleared then some (s.setPhase t .ended) else none
  | .envOpen d =>
    if s.fds d = none then some { s with fds := Function.update s.fds d (some .other) } else none
  | .envClose d =>
    if 3 ≤ d ∧ s.fds d = some .other then some { s with fds := Function.update s.fds d none } else none

/-! ### What is promised, and when -/

/-- Nobody is inside `pthread_join` for a thread that is in its loop, or can still enter it, with no
stop request pending. -/
def NoLostStop (s : State) : Prop :=
  ∀ i t, s.callers i = .joining t → (s.threads t).phase.canLoop = true → (s.threads t).signalled = true

/-- `start` has found `g_running` clear and has not created its thread yet. -/
def Caller.starts : Caller → Bool
  | .configuring | .creating | .failing => true
  | _ => false

/-- The channel variable does not hold the thread's channel yet. -/
def Phase.early : Phase → Bool
  | .starting | .opened => true
  | _ => false

/-- The calls do not race: a `start` that finds `g_running` clear is alone; a `stop` tests the channel
variable only when the thread was created and, should the variable be unset, is past the store of its
channel; `ciadpiStop` shuts down only while the thread's own socket is published and open. -/
def Orderly (e : Engine) (s : State) : Label → Prop
  | .startCall i => s.gRunning = false → ∀ j, j ≠ i → s.callers j = .idle
  | .testChannel _ => (∀ j, (s.callers j).starts = false) ∧
      (channelTest e s.chanVar = false → ∀ t, s.gThread = some t → (s.threads t).phase.early = false)
  | .signal _ => e = .ciadpi → ∃ t, s.gThread = some t ∧ (s.threads t).phase.announced = true
  | _ => True

/-! ### The invariant -/

/-- The channel variable holds the number of the thread's channel, open or just closed. -/
def Phase.holds : Phase → Bool
  | .published | .looping | .exited | .closed => true
  | _ => false

/-- No thread is before the clearing of `g_running`. -/
def NoneLive (s : State) : Prop := ∀ t, (s.threads t).phase.live = false

/-- What a caller knows where it stands. -/
def Known (e : Engine) (s : State) : Caller → Prop
  | .idle | .testing => True
  | .configuring | .failing | .joined => NoneLive s
  | .creating => s.gRunning = true ∧ NoneLive s
  | .signalling => e = .tun2socks → ∀ t, s.gThread = some t → (s.threads t).phase.early = false
  | .calling => ∀ t, s.gThread = some t → (s.threads t).phase.canLoop = true → (s.threads t).signalled = true
  | .joining t => s.gThread = some t ∧ ((s.threads t).phase.canLoop = true → (s.threads t).signalled = true)

/-- What holds in every state of an orderly run. -/
structure Inv (e : Engine) (s : State) : Prop where
  current : ∀ t, (s.threads t).phase.live = true → s.gThread = some t
  flag : s.gRunning = false → NoneLive s
  std : ∀ d < 3, s.fds d = some .other
  owned : ∀ t, (s.threads t).phase = .opened ∨ (s.threads t).phase.announced = true →
    s.fds (s.threads t).fd = some (.channel t)
  chan : ∀ t, (s.threads t).phase.announced = true → s.chanVar = (s.threads t).fd
  unset : e = .tun2socks → 0 ≤ s.chanVar → ∃ t, (s.threads t).phase.holds = true
  known : ∀ i, Known e s (s.callers i)
  alone : ∀ i j, i ≠ j → (s.callers i).starts = true → s.callers j = .idle ∨ s.callers j = .testing
  aimed : e = .ciadpi → s.misfired = false

theorem inv_init (e : Engine) : Inv e (init e) := by
  cases e
  · constructor <;> simp [init, Phase.live, Phase.announced, NoneLive, Known, Caller.starts]
  · constructor <;> simp [init, Phase.live, Phase.announced, NoneLive, Known, Caller.starts]

variable {e : Engine} {s s' : State}

theorem Inv.live_unique (h : Inv e s) {t u : ℕ} (ht : (s.threads t).phase.live = true)
    (hu : (s.threads u).phase.live = true) : u = t :=
  Option.some.inj ((h.current u hu).symm.trans (h.current t ht))

theorem Phase.live_of_announced {p : Phase} (h : p = .opened ∨ p.announced = true) : p.live = true := by
  rcases h with rfl | h
  · rfl
  · cases p <;> first | rfl | cases h

theorem Phase.live_of_holds {p : Phase} (h : p.holds = true) : p.live = true := by
  cases p <;> first | rfl | cases h

theorem Inv.caller (h : Inv e s) {i : ℕ} {c : Caller} (hknown : Known e s c)
    (halone : c.starts = true → ∀ j, j ≠ i → s.callers j = .idle ∨ s.callers j = .testing)
    (hmeek : ∀ j, j ≠ i → (s.callers j).starts = true → c = .idle ∨ c = .testing) :
    Inv e (s.setCaller i c) := by
  refine { h with known := fun k => ?_, alone := fun j k hjk hj => ?_ }
  · by_cases hk : k = i
    · subst hk
      simp only [State.setCaller, Function.update_self]
      exact hknown
    · simp only [State.setCaller, Function.update_of_ne hk]
      exact h.known k
  · simp only [State.setCaller] at hj ⊢
    by_cases hji : j = i
    · subst hji
      rw [Function.update_self] at hj
      rw [Function.update_of_ne (Ne.symm hjk)]
      exact halone hj k (Ne.symm hjk)
    · rw [Function.update_of_ne hji] at hj
      by_cases hki : k = i
      · subst hki
        rw [Function.update_self]
        exact hmeek j hji hj
      · rw [Function.update_of_ne hki]
        exact h.alone j k hjk hj

/-- A live thread moves on: it is the only one, so only its own facts have to be shown. -/
theorem Inv.thread (h : Inv e s) {t : ℕ} {x : Thread} (hlive : (s.threads t).phase.live = true)
    (hthreads : s'.threads = Function.update s.threads t x) (hcallers : s'.callers = s.callers)
    (hg : s'.gThread = s.gThread) (hm : s'.misfired = s.misfired)
    (hsig : x.signalled = (s.threads t).signalled)
    (hloop : x.phase.canLoop = true → (s.threads t).phase.canLoop = true)
    (hearly : x.phase.early = true → (s.threads t).phase.early = true)
    (hflag : s'.gRunning = false → s.gRunning = false ∨ x.phase.live = false)
    (hstd : ∀ d < 3, s'.fds d = some .other)
    (howned : x.phase = .opened ∨ x.phase.announced = true → s'.fds x.fd = some (.channel t))
    (hchan : x.phase.announced = true → s'.chanVar = x.fd)
    (hunset : e = .tun2socks → 0 ≤ s'.chanVar → x.phase.holds = true) : Inv e s' := by
  have hself : s'.threads t = x := by rw [hthreads, Function.update_self]
  have hother : ∀ u, u ≠ t → s'.threads u = s.threads u := fun u hu => by
    rw [hthreads, Function.update_of_ne hu]
  have hdead : ∀ u, u ≠ t → (s.threads u).phase.live = false := fun u hu => by
    by_contra hl
    exact hu (h.live_unique hlive (by simpa using hl))
  have hcur := h.current t hlive
  have hnot : ¬ NoneLive s := fun hn => absurd hlive (by rw [hn t]; decide)
  refine ⟨fun u hu => ?_, fun hr u => ?_, hstd, fun u hu => ?_, fun u hu => ?_, fun he hv => ?_, fun i => ?_,
    ?_, ?_⟩
  · by_cases hut : u = t
    · rw [hg, hcur, hut]
    · rw [hother u hut, hdead u hut] at hu
      cases hu
  · rcases hflag hr with hf | hf
    · exact absurd (h.flag hf) hnot
    · by_cases hut : u = t
      · rw [hut, hself, hf]
      · rw [hother u hut, hdead u hut]
  · by_cases hut : u = t
    · subst hut
      rw [hself] at hu ⊢
      exact howned hu
    · rw [hother u hut] at hu
      exact absurd (Phase.live_of_announced hu) (by rw [hdead u hut]; decide)
  · by_cases hut : u = t
    · subst hut
      rw [hself] at hu ⊢
      exact hchan hu
    · rw [hother u hut] at hu
      exact absurd (Phase.live_of_announced (.inr hu)) (by rw [hdead u hut]; decide)
  · exact ⟨t, by rw [hself]; exact hunset he hv⟩
  · have hk := h.known i
    rw [hcallers]
    cases hc : s.callers i with
    | idle => trivial
    | testing => trivial
    | configuring => exact absurd (by rw [hc] at hk; exact hk) hnot
    | failing => exact absurd (by rw [hc] at hk; exact hk) hnot
    | joined => exact absurd (by rw [hc] at hk; exact hk) hnot
    | creating => exact absurd (by rw [hc] at hk; exact hk.2) hnot
    | signalling =>
      rw [hc] at hk
      intro he u hu
      obtain rfl : u = t := Option.some.inj (hu.symm.trans (hg.trans hcur))
      have hlate := hk he u hcur
      rw [hself]
      by_contra hx
      exact absurd (hearly (by simpa using hx)) (by rw [hlate]; decide)
    | calling =>
      rw [hc] at hk
      intro u hu hl
      obtain rfl : u = t := Option.some.inj (hu.symm.trans (hg.trans hcur))
      rw [hself] at hl ⊢
      rw [hsig]
      exact hk u hcur (hloop hl)
    | joining u =>
      rw [hc] at hk
      obtain rfl : u = t := Option.some.inj (hk.1.symm.trans hcur)
      refine ⟨hg.trans hcur, fun hl => ?_⟩
      rw [hself] at hl ⊢
      rw [hsig]
      exact hk.2 (hloop hl)
  · rw [hcallers]
    exact h.alone
  · rw [hm]
    exact h.aimed

/-! ### The steps of a thread -/

theorem Inv.fd_ge (h : Inv e s) {d : ℕ} (hd : s.fds d = none) : 3 ≤ d := by
  by_contra hlt
  rw [h.std d (by omega)] at hd
  cases hd

theorem update_std {f : ℕ → Option Owner} (h : ∀ d < 3, f d = some .other) {k : ℕ} (hk : 3 ≤ k)
    (o : Option Owner) :
    ∀ d < 3, Function.update f k o d = some .other := fun d hd => by
  rw [Function.update_of_ne (by omega)]
  exact h d hd

theorem Inv.openChannel_step (h : Inv e s) {t : ℕ} {d : Option ℕ}
    (hs : step e s (.openChannel t d) = some s') :
    Inv e s' := by
  simp only [step, Option.ite_none_right_eq_some] at hs
  obtain ⟨hp, hs⟩ := hs
  have hlive : (s.threads t).phase.live = true := by rw [hp]; rfl
  cases d with
  | none =>
    cases hs
    refine h.thread hlive rfl rfl rfl rfl rfl (by simp [Phase.canLoop]) (by simp [Phase.early]) .inl h.std
      (by simp [Phase.announced]) (by simp [Phase.announced]) fun he hv => ?_
    -- nothing is published, for this thread is the only one
    obtain ⟨u, hu⟩ := h.unset he hv
    rw [h.live_unique hlive (Phase.live_of_holds hu), hp] at hu
    cases hu
  | some d =>
    simp only [Option.ite_none_right_eq_some] at hs
    obtain ⟨hd, hs⟩ := hs
    have hstd := update_std h.std (h.fd_ge hd) (some (.channel t))
    cases e with
    | ciadpi =>
      cases hs
      exact h.thread hlive rfl rfl rfl rfl rfl (by simp [hp, Phase.canLoop]) (by simp [hp, Phase.early]) .inl
        hstd (fun _ => Function.update_self ..) (by simp [Phase.announced]) (by simp)
    | tun2socks =>
      cases hs
      exact h.thread hlive rfl rfl rfl rfl rfl (by simp [hp, Phase.canLoop]) (by simp [Phase.early]) .inl
        hstd (fun _ => Function.update_self ..) (fun _ => rfl) (by simp [Phase.holds])

theorem Inv.publish_step (h : Inv e s) {t : ℕ} (hs : step e s (.publish t) = some s') : Inv e s' := by
  simp only [step, Option.ite_none_right_eq_some, Option.some.injEq] at hs
  obtain ⟨hp, rfl⟩ := hs
  exact h.thread (by rw [hp]; rfl) rfl rfl rfl rfl rfl (by simp [hp, Phase.canLoop])
    (by simp [Phase.early]) .inl
    h.std (fun _ => h.owned t (.inl hp)) (fun _ => rfl) (by simp [Phase.holds])

theorem Inv.prepare_step (h : Inv e s) {t : ℕ} {ok : Bool} (hs : step e s (.prepare t ok) = some s') :
    Inv e s' := by
  simp only [step, Option.ite_none_right_eq_some, Option.some.injEq] at hs
  obtain ⟨hp, rfl⟩ := hs
  have ha : (s.threads t).phase.announced = true := by rw [hp]; rfl
  cases ok
  · exact h.thread (by rw [hp]; rfl) rfl rfl rfl rfl rfl (by simp [Phase.canLoop]) (by simp [Phase.early])
      .inl h.std (fun _ => h.owned t (.inr ha)) (fun _ => h.chan t ha) (by simp [Phase.holds])
  · exact h.thread (by rw [hp]; rfl) rfl rfl rfl rfl rfl (by simp [hp, Phase.canLoop]) (by simp [Phase.early])
      .inl h.std (fun _ => h.owned t (.inr ha)) (fun _ => h.chan t ha) (by simp [Phase.holds])

theorem Inv.exit_step (h : Inv e s) {t : ℕ} (hs : step e s (.exit t) = some s') : Inv e s' := by
  simp only [step, Option.ite_none_right_eq_some, Option.some.injEq] at hs
  obtain ⟨hp, rfl⟩ := hs
  have ha : (s.threads t).phase.announced = true := by rw [hp]; rfl
  exact h.thread (by rw [hp]; rfl) rfl rfl rfl rfl rfl (by simp [Phase.canLoop]) (by simp [Phase.early])
    .inl h.std (fun _ => h.owned t (.inr ha)) (fun _ => h.chan t ha) (by simp [Phase.holds])

theorem Inv.close_step (h : Inv e s) {t : ℕ} (hs : step e s (.close t) = some s') : Inv e s' := by
  simp only [step, Option.ite_none_right_eq_some, Option.some.injEq] at hs
  obtain ⟨hp, rfl⟩ := hs
  have howned := h.owned t (.inr (by rw [hp]; rfl))
  have hge : 3 ≤ (s.threads t).fd := by
    by_contra hlt
    rw [h.std _ (by omega)] at howned
    cases howned
  exact h.thread (by rw [hp]; rfl) rfl rfl rfl rfl rfl (by simp [Phase.canLoop]) (by simp [Phase.early])
    .inl (update_std h.std hge none) (by simp [Phase.announced]) (by simp [Phase.announced])
      (by simp [Phase.holds])

theorem Inv.reset_step (h : Inv e s) {t : ℕ} (hs : step e s (.reset t) = some s') : Inv e s' := by
  simp only [step, Option.ite_none_right_eq_some] at hs
  obtain ⟨hp, hs⟩ := hs
  cases e with
  | ciadpi =>
    cases hs
    exact h.thread (by rw [hp]; rfl) rfl rfl rfl rfl rfl (by simp [Phase.canLoop]) (by simp [Phase.early])
      .inl h.std (by simp [Phase.announced]) (by simp [Phase.announced]) (by simp)
  | tun2socks =>
    cases hs
    exact h.thread (by rw [hp]; rfl) rfl rfl rfl rfl rfl (by simp [Phase.canLoop]) (by simp [Phase.early])
      .inl h.std (by simp [Phase.announced]) (by simp [Phase.announced]) (by simp)

theorem Inv.clear_step (h : Inv e s) {t : ℕ} (hs : step e s (.clear t) = some s') : Inv e s' := by
  simp only [step, Option.ite_none_right_eq_some, Option.some.injEq] at hs
  obtain ⟨hp, rfl⟩ := hs
  have hlive : (s.threads t).phase.live = true := by rw [hp]; rfl
  refine h.thread hlive rfl rfl rfl rfl rfl (by simp [Phase.canLoop]) (by simp [Phase.early])
    (fun _ => .inr rfl) h.std (by simp [Phase.announced]) (by simp [Phase.announced]) fun he hv => ?_
  obtain ⟨u, hu⟩ := h.unset he hv
  rw [h.live_unique hlive (Phase.live_of_holds hu), hp] at hu
  cases hu

/-- The end of a thread changes nothing anybody depends on. -/
theorem Inv.finish_step (h : Inv e s) {t : ℕ} (hs : step e s (.finish t) = some s') : Inv e s' := by
  simp only [step, Option.ite_none_right_eq_some, Option.some.injEq] at hs
  obtain ⟨hp, rfl⟩ := hs
  have hcase : ∀ u, (s.setPhase t .ended).threads u = s.threads u ∨
      (s.threads u).phase = .cleared ∧ ((s.setPhase t .ended).threads u).phase = .ended := fun u => by
    by_cases hu : u = t
    · subst hu
      exact .inr ⟨hp, by simp [State.setPhase, State.setThread]⟩
    · exact .inl (by simp [State.setPhase, State.setThread, Function.update_of_ne hu])
  have hnone : NoneLive s → NoneLive (s.setPhase t .ended) := fun hn u => by
    rcases hcase u with hu | ⟨-, hu⟩
    · rw [hu]
      exact hn u
    · rw [hu]
      rfl
  refine ⟨fun u hu => ?_, fun hr => hnone (h.flag hr), h.std, fun u hu => ?_, fun u hu => ?_,
    fun he hv => ?_, fun i => ?_, h.alone, h.aimed⟩
  · rcases hcase u with hc | ⟨-, hc⟩
    · rw [hc] at hu
      exact h.current u hu
    · rw [hc] at hu
      cases hu
  · rcases hcase u with hc | ⟨-, hc⟩
    · rw [hc] at hu ⊢
      exact h.owned u hu
    · rw [hc] at hu
      rcases hu with hu | hu <;> cases hu
  · rcases hcase u with hc | ⟨-, hc⟩
    · rw [hc] at hu ⊢
      exact h.chan u hu
    · rw [hc] at hu
      cases hu
  · obtain ⟨u, hu⟩ := h.unset he hv
    rcases hcase u with hc | ⟨hc, -⟩
    · exact ⟨u, by rw [hc]; exact hu⟩
    · rw [hc] at hu
      cases hu
  · have hk := h.known i
    change Known e _ (s.callers i)
    cases hc : s.callers i with
    | idle => trivial
    | testing => trivial
    | configuring => exact hnone (by rw [hc] at hk; exact hk)
    | failing => exact hnone (by rw [hc] at hk; exact hk)
    | joined => exact hnone (by rw [hc] at hk; exact hk)
    | creating =>
      rw [hc] at hk
      exact ⟨hk.1, hnone hk.2⟩
    | signalling =>
      rw [hc] at hk
      intro he u hu
      rcases hcase u with hcu | ⟨-, hcu⟩
      · rw [hcu]
        exact hk he u hu
      · rw [hcu]
        rfl
    | calling =>
      rw [hc] at hk
      intro u hu hl
      rcases hcase u with hcu | ⟨-, hcu⟩
      · rw [hcu] at hl ⊢
        exact hk u hu hl
      · rw [hcu] at hl
        cases hl
    | joining u =>
      rw [hc] at hk
      refine ⟨hk.1, fun hl => ?_⟩
      rcases hcase u with hcu | ⟨-, hcu⟩
      · rw [hcu] at hl ⊢
        exact hk.2 hl
      · rw [hcu] at hl
        cases hl

/-! ### The steps of a caller -/

theorem Inv.startCall_step (h : Inv e s) {i : ℕ} (hg : Orderly e s (.startCall i))
    (hs : step e s (.startCall i) = some s') : Inv e s' := by
  simp only [step, Option.ite_none_right_eq_some] at hs
  obtain ⟨hc, hs⟩ := hs
  by_cases hr : s.gRunning = true
  · rw [if_pos hr] at hs
    cases hs
    exact h
  · rw [if_neg hr] at hs
    cases hs
    have hidle := hg (by simpa using hr)
    refine h.caller (h.flag (by simpa using hr)) (fun _ j hj => .inl (hidle j hj)) fun j hj hst => ?_
    rw [hidle j hj] at hst
    cases hst

theorem Inv.setRunning (h : Inv e s) : Inv e { s with gRunning := true } := by
  refine { h with flag := fun hf => absurd hf (by simp), known := fun i => ?_ }
  have hk := h.known i
  change Known e _ (s.callers i)
  cases hc : s.callers i <;> rw [hc] at hk <;> first | exact hk | exact ⟨rfl, hk.2⟩

theorem Inv.clearRunning (h : Inv e s) (hn : NoneLive s) (hcr : ∀ i, s.callers i ≠ .creating) :
    Inv e { s with gRunning := false } := by
  refine { h with flag := fun _ => hn, known := fun i => ?_ }
  have hk := h.known i
  change Known e _ (s.callers i)
  cases hc : s.callers i <;> rw [hc] at hk <;> first | exact hk | exact absurd hc (hcr i)

theorem Inv.setFlag_step (h : Inv e s) {i : ℕ} (hs : step e s (.setFlag i) = some s') : Inv e s' := by
  simp only [step, Option.ite_none_right_eq_some, Option.some.injEq] at hs
  obtain ⟨hc, rfl⟩ := hs
  have hn : NoneLive s := by
    have hk := h.known i
    rw [hc] at hk
    exact hk
  have hst : (s.callers i).starts = true := by rw [hc]; rfl
  refine h.setRunning.caller ⟨rfl, hn⟩ (fun _ j hj => h.alone i j (Ne.symm hj) hst) fun j hj hstj => ?_
  rcases h.alone j i hj hstj with hi | hi <;> rw [hi] at hst <;> cases hst

theorem Inv.create_step (h : Inv e s) {i : ℕ} {ok : Bool} (hs : step e s (.create i ok) = some s') :
    Inv e s' := by
  simp only [step, Option.ite_none_right_eq_some] at hs
  obtain ⟨hc, hs⟩ := hs
  obtain ⟨hrun, hn⟩ : s.gRunning = true ∧ NoneLive s := by
    have hk := h.known i
    rw [hc] at hk
    exact hk
  have hst : (s.callers i).starts = true := by rw [hc]; rfl
  have hmeek : ∀ j, j ≠ i → s.callers j = .idle ∨ s.callers j = .testing := fun j hj =>
    h.alone i j (Ne.symm hj) hst
  cases ok with
  | false =>
    cases hs
    refine h.caller hn (fun _ => hmeek) fun j hj hstj => ?_
    rcases hmeek j hj with hi | hi <;> rw [hi] at hstj <;> cases hstj
  | true =>
    rw [if_pos rfl, Option.some.injEq] at hs
    subst hs
    have hdead : ∀ u, u ≠ s.created → (Function.update s.threads s.created
        { phase := .starting } u).phase.live
        = false := fun u hu => by
      rw [Function.update_of_ne hu]
      exact hn u
    have hnew : ∀ u, (Function.update s.threads s.created { phase := .starting } u).phase.live = true →
        u = s.created := fun u hu => by
      by_contra hne
      rw [hdead u hne] at hu
      cases hu
    have hcallers : ∀ j, Function.update s.callers i .idle j = .idle ∨
        Function.update s.callers i .idle j = .testing := fun j => by
      by_cases hj : j = i
      · subst hj
        exact .inl (Function.update_self ..)
      · rw [Function.update_of_ne hj]
        exact hmeek j hj
    refine ⟨fun u hu => ?_, fun hf => ?_, h.std, fun u hu => ?_, fun u hu => ?_, fun he hv => ?_, fun j => ?_,
      fun j k _ hj => ?_, h.aimed⟩
    · exact congrArg some (hnew u hu).symm
    · exact absurd hf (by simp [State.setCaller, State.setThread, hrun])
    · have hu' := hnew u (Phase.live_of_announced hu)
      subst hu'
      simp [State.setCaller, State.setThread, Phase.announced] at hu
    · have hu' := hnew u (Phase.live_of_announced (.inr hu))
      subst hu'
      simp [State.setCaller, State.setThread, Phase.announced] at hu
    · obtain ⟨u, hu⟩ := h.unset he hv
      exact absurd (Phase.live_of_holds hu) (by rw [hn u]; decide)
    · simp only [State.setCaller, State.setThread]
      rcases hcallers j with hj | hj <;> rw [hj] <;> trivial
    · exact hcallers k

theorem Inv.unsetFlag_step (h : Inv e s) {i : ℕ} (hs : step e s (.unsetFlag i) = some s') : Inv e s' := by
  simp only [step, Option.ite_none_right_eq_some, Option.some.injEq] at hs
  obtain ⟨hc, rfl⟩ := hs
  have hn : NoneLive s := by
    have hk := h.known i
    rw [hc] at hk
    exact hk
  have hst : (s.callers i).starts = true := by rw [hc]; rfl
  refine (h.clearRunning hn fun j hj => ?_).caller trivial (by simp [Caller.starts]) fun j _ _ => .inl rfl
  by_cases hji : j = i
  · rw [hji, hc] at hj
    cases hj
  · rcases h.alone i j (Ne.symm hji) hst with hi | hi <;> rw [hi] at hj <;> cases hj

theorem Inv.stopCall_step (h : Inv e s) {i : ℕ} (hs : step e s (.stopCall i) = some s') : Inv e s' := by
  simp only [step, Option.ite_none_right_eq_some] at hs
  obtain ⟨hc, hs⟩ := hs
  by_cases hr : s.gRunning = true
  · rw [if_pos hr] at hs
    cases hs
    exact h.caller trivial (by simp [Caller.starts]) fun _ _ _ => .inr rfl
  · rw [if_neg hr] at hs
    cases hs
    exact h

/-- The variable of a thread that has published passes the test. -/
theorem Inv.channelTest_announced (h : Inv e s) {t : ℕ} (ha : (s.threads t).phase.announced = true) :
    channelTest e s.chanVar = true := by
  have hfd : 3 ≤ (s.threads t).fd := by
    by_contra hlt
    have howned := h.owned t (.inr ha)
    rw [h.std _ (by omega)] at howned
    cases howned
  rw [h.chan t ha]
  cases e with
  | ciadpi =>
    simp only [channelTest, gt_iff_lt, decide_eq_true_eq]
    omega
  | tun2socks => simp [channelTest]

theorem Inv.testChannel_step (h : Inv e s) {i : ℕ} (hg : Orderly e s (.testChannel i))
    (hs : step e s (.testChannel i) = some s') : Inv e s' := by
  simp only [step, Option.ite_none_right_eq_some, Option.some.injEq] at hs
  obtain ⟨hc, rfl⟩ := hs
  obtain ⟨hnostart, hfail⟩ := hg
  have hmeek : ∀ j, (s.callers j).starts = true → False := fun j hj => by
    rw [hnostart j] at hj
    cases hj
  by_cases ht : channelTest e s.chanVar = true
  · rw [if_pos ht]
    refine h.caller (fun he t hgt => ?_) (by simp [Caller.starts]) fun j _ hj => (hmeek j hj).elim
    subst he
    -- a set variable belongs to a thread that has published
    obtain ⟨u, hu⟩ := h.unset rfl (by simpa [channelTest] using ht)
    obtain rfl : t = u := Option.some.inj (hgt.symm.trans (h.current u (Phase.live_of_holds hu)))
    revert hu
    cases (s.threads t).phase <;> simp [Phase.holds, Phase.early]
  · rw [if_neg ht]
    refine h.caller (fun t hgt hl => ?_) (by simp [Caller.starts]) fun j _ hj => (hmeek j hj).elim
    have hlate := hfail (by simpa using ht) t hgt
    have ha : (s.threads t).phase.announced = true := by
      revert hl hlate
      cases (s.threads t).phase <;> simp [Phase.canLoop, Phase.early, Phase.announced]
    exact absurd (h.channelTest_announced ha) ht

theorem Inv.setSignalled (h : Inv e s) (t : ℕ) :
    Inv e (s.setThread t { s.threads t with signalled := true }) := by
  have hphase : ∀ u, ((s.setThread t { s.threads t with signalled := true }).threads u).phase =
      (s.threads u).phase := fun u => by
    by_cases hu : u = t
    · subst hu
      simp [State.setThread]
    · simp [State.setThread, Function.update_of_ne hu]
  have hfd : ∀ u, ((s.setThread t { s.threads t with signalled := true }).threads u).fd =
      (s.threads u).fd := fun u => by
    by_cases hu : u = t
    · subst hu
      simp [State.setThread]
    · simp [State.setThread, Function.update_of_ne hu]
  have hsig : ∀ u, (s.threads u).signalled = true →
      ((s.setThread t { s.threads t with signalled := true }).threads u).signalled = true := fun u hs => by
    by_cases hu : u = t
    · subst hu
      simp [State.setThread]
    · simp [State.setThread, Function.update_of_ne hu, hs]
  have hnone : NoneLive s → NoneLive (s.setThread t { s.threads t with signalled := true }) := fun hn u => by
    rw [hphase]
    exact hn u
  refine ⟨fun u hu => ?_, fun hr => hnone (h.flag hr), h.std, fun u hu => ?_, fun u hu => ?_, fun he hv => ?_,
    fun i => ?_, h.alone, h.aimed⟩
  · rw [hphase] at hu
    exact h.current u hu
  · rw [hphase] at hu
    rw [hfd]
    exact h.owned u hu
  · rw [hphase] at hu
    rw [hfd]
    exact h.chan u hu
  · obtain ⟨u, hu⟩ := h.unset he hv
    exact ⟨u, by rw [hphase]; exact hu⟩
  · have hk := h.known i
    change Known e _ (s.callers i)
    cases hc : s.callers i <;> rw [hc] at hk
    case idle | testing => trivial
    case configuring | failing | joined => exact hnone hk
    case creating => exact ⟨hk.1, hnone hk.2⟩
    case signalling =>
      intro he u hu
      rw [hphase]
      exact hk he u hu
    case calling =>
      intro u hu hl
      rw [hphase] at hl
      exact hsig u (hk u hu hl)
    case joining u =>
      refine ⟨hk.1, fun hl => ?_⟩
      rw [hphase] at hl
      exact hsig u (hk.2 hl)

/-- The variable of a thread that has published leads to its channel. -/
theorem Inv.ownerOf_announced (h : Inv e s) {t : ℕ} (ha : (s.threads t).phase.announced = true) :
    s.ownerOf s.chanVar = some (.channel t) := by
  rw [h.chan t ha, State.ownerOf, if_neg (by omega), Int.toNat_natCast]
  exact h.owned t (.inr ha)

theorem Inv.signal_step (h : Inv e s) {i : ℕ} (hg : Orderly e s (.signal i))
    (hs : step e s (.signal i) = some s') : Inv e s' := by
  simp only [step, Option.ite_none_right_eq_some] at hs
  obtain ⟨hc, hs⟩ := hs
  have hmeek : ∀ j, j ≠ i → (s.callers j).starts = true → False := fun j hj hst => by
    rcases h.alone j i hj hst with hi | hi <;> rw [hi] at hc <;> cases hc
  have hcaller : ∀ s₁ : State, Inv e s₁ → s₁.callers = s.callers → Known e s₁ .calling →
      Inv e (s₁.setCaller i .calling) := fun s₁ h₁ hcs hk =>
    h₁.caller hk (by simp [Caller.starts]) fun j hj hst => (hmeek j hj (hcs ▸ hst)).elim
  by_cases hann : ∃ t, s.gThread = some t ∧ (s.threads t).phase.announced = true
  · obtain ⟨t, hgt, ha⟩ := hann
    rw [h.ownerOf_announced ha] at hs
    simp only [hgt, ne_eq, not_true_eq_false, decide_false, Bool.or_false, Option.some.injEq] at hs
    subst hs
    refine hcaller _ (h.setSignalled t) rfl fun u hu _ => ?_
    obtain rfl : u = t := Option.some.inj (hu.symm.trans hgt)
    simp [State.setThread]
  · -- only a thread of tun2socks that has left its loop can be out of reach
    have he : e = .tun2socks := by
      cases e with
      | ciadpi => exact absurd (hg rfl) hann
      | tun2socks => rfl
    subst he
    have hk := h.known i
    rw [hc] at hk
    have hgone : ∀ t, s.gThread = some t → (s.threads t).phase.canLoop = false := fun t hgt => by
      have hlate := hk rfl t hgt
      have hna : ¬ (s.threads t).phase.announced = true := fun ha => hann ⟨t, hgt, ha⟩
      revert hlate hna
      cases (s.threads t).phase <;> simp [Phase.early, Phase.announced, Phase.canLoop]
    have haim : ∀ s₁ : State, Inv .tun2socks s₁ → ∀ m, Inv .tun2socks { s₁ with misfired := m } :=
      fun s₁ h₁ m => { h₁ with aimed := fun he => by cases he }
    split at hs
    · rename_i t _
      cases hs
      refine haim _ (hcaller _ (h.setSignalled t) rfl fun u hu hl => ?_) _
      have hgone := hgone u hu
      by_cases hut : u = t
      · subst hut
        simp [State.setThread]
      · simp only [State.setThread, Function.update_of_ne hut] at hl
        rw [hgone] at hl
        cases hl
    · cases hs
      refine haim _ (hcaller _ h rfl fun u hu hl => ?_) _
      rw [hgone u hu] at hl
      cases hl

theorem Inv.join_step (h : Inv e s) {i : ℕ} (hs : step e s (.join i) = some s') : Inv e s' := by
  simp only [step, Option.ite_none_right_eq_some] at hs
  obtain ⟨hc, hs⟩ := hs
  have hk := h.known i
  rw [hc] at hk
  have hmeek : ∀ j, j ≠ i → (s.callers j).starts = true → False := fun j hj hst => by
    rcases h.alone j i hj hst with hi | hi <;> rw [hi] at hc <;> cases hc
  cases ht : s.gThread with
  | none =>
    rw [ht] at hs
    cases hs
    refine h.caller (fun u => ?_) (by simp [Caller.starts]) fun j hj hst => (hmeek j hj hst).elim
    by_contra hl
    have := h.current u (by simpa using hl)
    rw [ht] at this
    cases this
  | some t =>
    rw [ht] at hs
    cases hs
    exact h.caller ⟨ht, hk t ht⟩ (by simp [Caller.starts]) fun j hj hst => (hmeek j hj hst).elim

theorem Inv.joinReturns_step (h : Inv e s) {i : ℕ} (hs : step e s (.joinReturns i) = some s') :
    Inv e s' := by
  simp only [step] at hs
  split at hs
  · rename_i t hc
    simp only [Option.ite_none_right_eq_some, Option.some.injEq] at hs
    obtain ⟨hp, rfl⟩ := hs
    have hk := h.known i
    rw [hc] at hk
    refine h.caller (fun u => ?_) (by simp [Caller.starts]) fun j hj hst => ?_
    · -- the thread that has ended is the only one that could be live
      by_contra hl
      have hu := h.current u (by simpa using hl)
      obtain rfl : u = t := Option.some.inj (hu.symm.trans hk.1)
      rw [hp] at hl
      exact hl rfl
    · rcases h.alone j i hj hst with hi | hi <;> rw [hi] at hc <;> cases hc
  · cases hs

theorem Inv.clearFlag_step (h : Inv e s) {i : ℕ} (hs : step e s (.clearFlag i) = some s') : Inv e s' := by
  simp only [step, Option.ite_none_right_eq_some, Option.some.injEq] at hs
  obtain ⟨hc, rfl⟩ := hs
  have hn : NoneLive s := by
    have hk := h.known i
    rw [hc] at hk
    exact hk
  refine (h.clearRunning hn fun j hj => ?_).caller trivial (by simp [Caller.starts]) fun j _ _ => .inl rfl
  by_cases hji : j = i
  · rw [hji, hc] at hj
    cases hj
  · rcases h.alone j i hji (by rw [hj]; rfl) with hi | hi <;> rw [hi] at hc <;> cases hc

/-! ### Runs -/

theorem Inv.env_step (h : Inv e s) {d : ℕ} {o : Option Owner} (hd : 3 ≤ d)
    (hfree : ∀ t, s.fds d ≠ some (.channel t)) : Inv e { s with fds := Function.update s.fds d o } := by
  refine { h with std := update_std h.std hd o, owned := fun t ht => ?_ }
  have howned := h.owned t ht
  have hne : (s.threads t).fd ≠ d := fun heq => hfree t (by rw [← heq]; exact howned)
  simp only
  rw [Function.update_of_ne hne]
  exact howned

/-- **An orderly step keeps the invariant.** -/
theorem step_inv {l : Label} (h : Inv e s) (hg : Orderly e s l) (hs : step e s l = some s') : Inv e s' := by
  cases l with
  | startCall i => exact h.startCall_step hg hs
  | setFlag i => exact h.setFlag_step hs
  | create i ok => exact h.create_step hs
  | unsetFlag i => exact h.unsetFlag_step hs
  | stopCall i => exact h.stopCall_step hs
  | testChannel i => exact h.testChannel_step hg hs
  | signal i => exact h.signal_step hg hs
  | join i => exact h.join_step hs
  | joinReturns i => exact h.joinReturns_step hs
  | clearFlag i => exact h.clearFlag_step hs
  | openChannel t d => exact h.openChannel_step hs
  | publish t => exact h.publish_step hs
  | prepare t ok => exact h.prepare_step hs
  | exit t => exact h.exit_step hs
  | close t => exact h.close_step hs
  | reset t => exact h.reset_step hs
  | clear t => exact h.clear_step hs
  | finish t => exact h.finish_step hs
  | envOpen d =>
    simp only [step, Option.ite_none_right_eq_some, Option.some.injEq] at hs
    obtain ⟨hd, rfl⟩ := hs
    exact h.env_step (h.fd_ge hd) fun t ht => by
      rw [hd] at ht
      cases ht
  | envClose d =>
    simp only [step, Option.ite_none_right_eq_some, Option.some.injEq] at hs
    obtain ⟨⟨hd, ho⟩, rfl⟩ := hs
    exact h.env_step hd fun t ht => by
      rw [ho] at ht
      cases ht

/-- **No stop is lost in an orderly run.** In every state, nobody waits for a thread that was not asked
to stop, and `ciadpiStop` has only ever shut down the listening socket of the session it stops. -/
theorem orderly_no_lost_stop (e : Engine) (s : State) (h : Reachable (step e) (init e) (Orderly e) s) :
    NoLostStop s ∧ (e = .ciadpi → s.misfired = false) := by
  have hinv : Inv e s := h.invariant (inv_init e) fun _ _ _ _ hi hg hs => step_inv hi hg hs
  refine ⟨fun i t hc hl => ?_, hinv.aimed⟩
  have hk := hinv.known i
  rw [hc] at hk
  exact hk.2 hl

theorem orderly_no_lost_stop_startStop :
    ∃ s, Reachable (step .ciadpi) (init .ciadpi) (Orderly .ciadpi) s ∧ s.callers 0 = .joining 0 ∧
      (s.threads 0).phase = .looping ∧ NoLostStop s ∧ (Engine.ciadpi = .ciadpi → s.misfired = false) := by
  have h0 : Reachable (step .ciadpi) (init .ciadpi) (Orderly .ciadpi) (init .ciadpi) := .init
  have h1 := h0.next (.startCall 0) (fun _ _ _ => rfl) rfl
  have h2 := h1.next (.setFlag 0) trivial rfl
  have h3 := h2.next (.create 0 true) trivial rfl
  have h4 := h3.next (.openChannel 0 (some 5)) trivial rfl
  have h5 := h4.next (.publish 0) trivial rfl
  have h6 := h5.next (.prepare 0 true) trivial rfl
  have h7 := h6.next (.stopCall 0) trivial rfl
  have h8 := h7.next (.testChannel 0) ⟨fun j => ?_, fun hf => by cases hf⟩ rfl
  · have h9 := h8.next (.signal 0) (fun _ => ⟨0, rfl, rfl⟩) rfl
    have h10 := h9.next (.join 0) trivial rfl
    exact ⟨_, h10, rfl, rfl, orderly_no_lost_stop .ciadpi _ h10⟩
  · cases j with
    | zero => rfl
    | succ j => rfl

/-- A `stop` between `g_running = 1` and the store of `server_fd` finds the variable zero, sends no
request and waits for a thread that will never end. -/
theorem stop_lost : ¬ ∀ (e : Engine) (s : State), Reachable (step e) (init e) anyStep s →
    NoLostStop s ∧ (e = .ciadpi → s.misfired = false) := by
  intro h
  obtain ⟨s, hs, hf⟩ := reachable_of_run (step .ciadpi) (init .ciadpi) anyStep_of_true
    [.startCall 0, .setFlag 0, .create 0 true, .stopCall 1, .testChannel 1, .join 1]
    (fun s => (s.callers 1, (s.threads 0).phase, (s.threads 0).signalled))
    (b := (.joining 0, .starting, false)) (by decide)
  simp only [Prod.mk.injEq] at hf
  obtain ⟨hcaller, hphase, hsignalled⟩ := hf
  have := (h .ciadpi s hs).1 1 0 hcaller (by rw [hphase]; rfl)
  rw [hsignalled] at this
  cases this

end BypassVpn.Native
