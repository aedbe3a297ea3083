import BypassVpn.Lib.Transition

/-!
# `ProtectSocketServer`: start, stop and the accept loop

`start` and `stop` are called by any threads at any time. They share five fields with the accept
threads, one for each successful `start`, which hand the clients they accept to a pool of workers.
Every statement is a step of its own.

* `CallerPc`, `StopPc`: a call of `start` or `stop`; `AcceptPc`: an accept thread; `ClientState`: what
  has become of an accepted client.
* `startStep`, `stopStep`, `acceptStep`, `step`; a worker runs `handleClient` from `take` to `finish`.
* `Safe`: no exception leaves an accept thread, no client is handed to a pool that was shut down, and
  none is forgotten; `Inv`, `step_inv`.
* **`stop_safe`**: it holds along every run in which `stop` does not take the pool away from a client on
  its way to it (`Orderly`).
-/

namespace BypassVpn.ProtectServer

open Transition

/-- The next statement of `stop`. -/
inductive StopPc where
  | clearRunning
  | closeServer
  | closeBound
  | shutdownNow
  | interrupt
  | clearServer
  | clearBound
  | clearThread
  | clearExecutor
  deriving DecidableEq, Repr

/-- The next statement of a call of `start` or `stop`; `n` is the socket that `start` has bound. -/
inductive CallerPc where
  | idle
  | test
  | bind
  | keepBound (n : ℕ)
  | listen (n : ℕ)
  | keepServer (n : ℕ)
  | newPool (n : ℕ)
  | setRunning (n : ℕ)
  | spawn (n : ℕ)
  | keepThread (t : ℕ)
  /-- In `stop`, called directly or by the `catch` block of `start`. -/
  | stopping (pc : StopPc)
  deriving DecidableEq, Repr

/-- An accept thread; `srv` is its own server socket. -/
inductive AcceptPc where
  | absent
  /-- Before `while (running)`. -/
  | test (srv : ℕ)
  /-- Before `srv.accept()`. -/
  | enter (srv : ℕ)
  /-- Inside `srv.accept()`. -/
  | blocked (srv : ℕ)
  /-- `accept()` has returned a client; before `executor` is read. -/
  | fetch (srv client : ℕ)
  /-- Before `execute` on the pool read. -/
  | submit (srv client pool : ℕ)
  | ended
  /-- An exception has left the thread. -/
  | crashed
  deriving DecidableEq, Repr

/-- What has become of a client's descriptor. -/
inductive ClientState where
  | unknown
  /-- In the hands of an accept thread. -/
  | held
  | queued (pool : ℕ)
  /-- In `handleClient`. -/
  | active (pool : ℕ)
  /-- `handleClient` has returned, and closed the socket. -/
  | handled
  /-- Neither handled nor closed, and nobody refers to it any more. -/
  | lost
  deriving DecidableEq, Repr

/-- The fields of the server, its callers, threads, sockets and pools. -/
structure State where
  running : Bool := false
  serverSocket : Option ℕ := none
  boundLocalSocket : Option ℕ := none
  acceptThread : Option ℕ := none
  executor : Option ℕ := none
  /-- Sockets bound so far, and those closed. -/
  bound : ℕ := 0
  closed : ℕ → Bool := fun _ => false
  /-- Pools created so far, and those shut down. -/
  pools : ℕ := 0
  shutDown : ℕ → Bool := fun _ => false
  spawned : ℕ := 0
  threads : ℕ → AcceptPc := fun _ => .absent
  callers : ℕ → CallerPc := fun _ => .idle
  /-- Clients accepted so far. -/
  accepted : ℕ := 0
  clients : ℕ → ClientState := fun _ => .unknown

namespace State

variable (s : State)

/-- A caller moves on. -/
def setCaller (i : ℕ) (pc : CallerPc) : State := { s with callers := Function.update s.callers i pc }

/-- An accept thread moves on. -/
def setThread (t : ℕ) (pc : AcceptPc) : State := { s with threads := Function.update s.threads t pc }

/-- A client changes hands. -/
def setClient (c : ℕ) (x : ClientState) : State := { s with clients := Function.update s.clients c x }

/-- A socket is closed, if there is one. -/
def close : Option ℕ → State
  | some n => { s with closed := Function.update s.closed n true }
  | none => s

/-- `shutdownNow()` drops the tasks in the queue; those that run go on. -/
def shutdownNow : Option ℕ → State
  | some p =>
    { s with
      shutDown := Function.update s.shutDown p true
      clients := fun c => if s.clients c = .queued p then .lost else s.clients c }
  | none => s

end State

/-- One statement of `stop`, for the caller `i`. -/
def stopStep (s : State) (i : ℕ) : StopPc → State
  | .clearRunning => { s with running := false }.setCaller i (.stopping .closeServer)
  | .closeServer => (s.close s.serverSocket).setCaller i (.stopping .closeBound)
  | .closeBound => (s.close s.boundLocalSocket).setCaller i (.stopping .shutdownNow)
  | .shutdownNow => (s.shutdownNow s.executor).setCaller i (.stopping .interrupt)
  -- `accept()` does not react to an interrupt
  | .interrupt => s.setCaller i (.stopping .clearServer)
  | .clearServer => { s with serverSocket := none }.setCaller i (.stopping .clearBound)
  | .clearBound => { s with boundLocalSocket := none }.setCaller i (.stopping .clearThread)
  | .clearThread => { s with acceptThread := none }.setCaller i (.stopping .clearExecutor)
  | .clearExecutor => { s with executor := none }.setCaller i .idle

/-- One statement of `start` or `stop`; `ok` tells whether a call that may throw returns. -/
def callerStep (s : State) (i : ℕ) (ok : Bool) : Option State :=
  match s.callers i with
  | .idle => none
  | .test => some (s.setCaller i (if s.running then .idle else .bind))
  | .bind =>
    some (if ok then { s with bound := s.bound + 1 }.setCaller i (.keepBound s.bound)
      else s.setCaller i (.stopping .clearRunning))
  | .keepBound n => some ({ s with boundLocalSocket := some n }.setCaller i (.listen n))
  | .listen n => some (s.setCaller i (if ok then .keepServer n else .stopping .clearRunning))
  | .keepServer n => some ({ s with serverSocket := some n }.setCaller i (.newPool n))
  | .newPool n =>
    some ({ s with
      pools := s.pools + 1
      shutDown := Function.update s.shutDown s.pools false
      executor := some s.pools }.setCaller i (.setRunning n))
  | .setRunning n => some ({ s with running := true }.setCaller i (.spawn n))
  | .spawn n =>
    some (({ s with spawned := s.spawned + 1 }.setThread s.spawned (.test n)).setCaller i
      (.keepThread s.spawned))
  | .keepThread t => some ({ s with acceptThread := some t }.setCaller i .idle)
  | .stopping pc => some (stopStep s i pc)

/-- One step of the accept thread `t`; `ok` tells whether `accept()` returns a client. -/
def acceptStep (s : State) (t : ℕ) (ok : Bool) : Option State :=
  match s.threads t with
  | .absent | .ended | .crashed => none
  | .test srv => some (s.setThread t (if s.running then .enter srv else .ended))
  | .enter srv => some (s.setThread t (if s.closed srv then .ended else .blocked srv))
  | .blocked srv =>
    some (if ok then
        ({ s with accepted := s.accepted + 1 }.setClient s.accepted .held).setThread t (.fetch srv s.accepted)
      else s.setThread t .ended)
  | .fetch srv c =>
    some (match s.executor with
      | some p => s.setThread t (.submit srv c p)
      -- `executor?.execute` does nothing
      | none => (s.setClient c .lost).setThread t (.test srv))
  | .submit srv c p =>
    some (if s.shutDown p then (s.setClient c .lost).setThread t .crashed
      else (s.setClient c (.queued p)).setThread t (.test srv))

/-- A step of a caller, an accept thread, a worker or a client. -/
inductive Label where
  | callStart (i : ℕ)
  | callStop (i : ℕ)
  | caller (i : ℕ) (ok : Bool)
  | accept (t : ℕ) (ok : Bool)
  /-- A worker takes a client from the queue of its pool. -/
  | take (c : ℕ)
  | finish (c : ℕ)
  deriving DecidableEq, Repr

/-- One step; `none` where it cannot be taken. -/
def step (s : State) : Label → Option State
  | .callStart i => if s.callers i = .idle then some (s.setCaller i .test) else none
  | .callStop i => if s.callers i = .idle then some (s.setCaller i (.stopping .clearRunning)) else none
  | .caller i ok => callerStep s i ok
  | .accept t ok => acceptStep s t ok
  | .take c =>
    match s.clients c with
    | .queued p => some (s.setClient c (.active p))
    | _ => none
  | .finish c =>
    match s.clients c with
    | .active _ => some (s.setClient c .handled)
    | _ => none

/-- The client that an accept thread holds between `accept()` and the end of `execute`. -/
def AcceptPc.client : AcceptPc → Option ℕ
  | .fetch _ c => some c
  | .submit _ c _ => some c
  | _ => none

/-- The thread does nothing any more. -/
def AcceptPc.over : AcceptPc → Bool
  | .absent | .ended | .crashed => true
  | _ => false

/-- All calls have returned, all accept threads are over and the pools have nothing to do. -/
def Finished (s : State) : Prop :=
  (∀ i, s.callers i = .idle) ∧ (∀ t, (s.threads t).over = true) ∧
    ∀ c p, s.clients c ≠ .queued p ∧ s.clients c ≠ .active p

/-- What is promised of the accept threads. -/
structure Safe (s : State) : Prop where
  noEscape : ∀ t, s.threads t ≠ .crashed
  /-- A pool on which `execute` is about to be called has not been shut down. -/
  notShutDown : ∀ t srv c p, s.threads t = .submit srv c p → s.shutDown p = false
  settled : Finished s → ∀ c, c < s.accepted → s.clients c = .handled

/-- `stop` shuts the pool down, or forgets it, only while no client is on its way to the pool, and
`accept()` returns a client only while there is a pool that has not been shut down. -/
def Orderly (s : State) : Label → Prop
  | .caller i _ =>
    (s.callers i = .stopping .shutdownNow → ∀ p, s.executor = some p →
      (∀ t, (s.threads t).client = none) ∧ ∀ c, s.clients c ≠ .queued p) ∧
    (s.callers i = .stopping .clearExecutor → ∀ t srv c, s.threads t ≠ .fetch srv c)
  | .accept t ok =>
    ok = true → ∀ srv, s.threads t = .blocked srv → ∃ p, s.executor = some p ∧ s.shutDown p = false
  | _ => True

/-! ### The invariant -/

/-- What holds in every state of an orderly run. -/
structure Inv (s : State) : Prop where
  fetch : ∀ t srv c, s.threads t = .fetch srv c → ∃ p, s.executor = some p ∧ s.shutDown p = false
  submit : ∀ t srv c p, s.threads t = .submit srv c p → s.shutDown p = false
  noEscape : ∀ t, s.threads t ≠ .crashed
  held : ∀ c, s.clients c = .held → ∃ t, (s.threads t).client = some c
  kept : ∀ c, s.clients c ≠ .lost
  known : ∀ c, c < s.accepted ↔ s.clients c ≠ .unknown
  inHand : ∀ t c, (s.threads t).client = some c → c < s.accepted
  fresh : ∀ t, s.spawned ≤ t → s.threads t = .absent

variable {s s' : State} {l : Label} {t c : ℕ} {x : AcceptPc} {y : ClientState}

theorem inv_init : Inv {} := by
  constructor <;> simp [AcceptPc.client]

theorem Inv.of_eq (h : Inv s) (h1 : s'.executor = s.executor) (h2 : s'.shutDown = s.shutDown)
    (h3 : s'.threads = s.threads) (h4 : s'.clients = s.clients) (h5 : s'.accepted = s.accepted)
    (h6 : s'.spawned = s.spawned) : Inv s' := by
  obtain ⟨a, b, c, d, e, f, g, i⟩ := h
  constructor <;> simp only [h1, h2, h3, h4, h5, h6] <;> assumption

theorem setThread_cases {u : ℕ} {z : AcceptPc} (hz : (s.setThread t x).threads u = z) :
    (u = t ∧ x = z) ∨ (u ≠ t ∧ s.threads u = z) := by
  by_cases hu : u = t
  · subst hu
    exact .inl ⟨rfl, by simpa [State.setThread] using hz⟩
  · exact .inr ⟨hu, by simpa [State.setThread, hu] using hz⟩

/-- An accept thread moves on; a client that it lets go is held no longer. -/
theorem Inv.setThread (h : Inv s) (ht : t < s.spawned)
    (hsame : ∀ c, (s.threads t).client = some c → s.clients c = .held → x.client = some c)
    (hin : ∀ c, x.client = some c → c < s.accepted)
    (hf : ∀ srv c, x = .fetch srv c → ∃ p, s.executor = some p ∧ s.shutDown p = false)
    (hsub : ∀ srv c p, x = .submit srv c p → s.shutDown p = false) (hx : x ≠ .crashed) :
    Inv (s.setThread t x) where
  fetch u srv c hu := by
    rcases setThread_cases hu with ⟨-, e⟩ | ⟨-, e⟩
    · exact hf srv c e
    · exact h.fetch u srv c e
  submit u srv c p hu := by
    rcases setThread_cases hu with ⟨-, e⟩ | ⟨-, e⟩
    · exact hsub srv c p e
    · exact h.submit u srv c p e
  noEscape u hu := by
    rcases setThread_cases hu with ⟨-, e⟩ | ⟨-, e⟩
    · exact hx e
    · exact h.noEscape u e
  held c hc := by
    obtain ⟨u, hu⟩ := h.held c hc
    by_cases he : u = t
    · subst he
      exact ⟨u, by simpa [State.setThread] using hsame c hu hc⟩
    · exact ⟨u, by simpa [State.setThread, he] using hu⟩
  kept := h.kept
  known := h.known
  inHand u c hu := by
    rcases setThread_cases (rfl : (s.setThread t x).threads u = _) with ⟨-, e⟩ | ⟨-, e⟩
    · exact hin c (e ▸ hu)
    · exact h.inHand u c (e ▸ hu)
  fresh u hu := by
    have hne : u ≠ t := by
      rintro rfl
      exact absurd ht (Nat.not_lt.mpr hu)
    simpa [State.setThread, hne] using h.fresh u hu

theorem Inv.setClient (h : Inv s) (hc : c < s.accepted) (hl : y ≠ .lost) (hu : y ≠ .unknown)
    (hh : y ≠ .held) :
    Inv (s.setClient c y) where
  fetch := h.fetch
  submit := h.submit
  noEscape := h.noEscape
  held d hd := by
    by_cases he : d = c
    · subst he
      exact absurd (by simpa [State.setClient] using hd) hh
    · exact h.held d (by simpa [State.setClient, he] using hd)
  kept d hd := by
    by_cases he : d = c
    · subst he
      exact hl (by simpa [State.setClient] using hd)
    · exact h.kept d (by simpa [State.setClient, he] using hd)
  known d := by
    by_cases he : d = c
    · subst he
      simpa [State.setClient, hu] using hc
    · simpa [State.setClient, he] using h.known d
  inHand := h.inHand
  fresh := h.fresh

theorem Inv.accepts (h : Inv s) {srv : ℕ} (ht : s.threads t = .blocked srv)
    (he : ∃ p, s.executor = some p ∧ s.shutDown p = false) :
    Inv (({ s with accepted := s.accepted + 1 }.setClient s.accepted .held).setThread t
      (.fetch srv s.accepted)) where
  fetch _ _ _ _ := he
  submit u srv c p hu := by
    rcases setThread_cases hu with ⟨-, e⟩ | ⟨-, e⟩
    · cases e
    · exact h.submit u srv c p e
  noEscape u hu := by
    rcases setThread_cases hu with ⟨-, e⟩ | ⟨-, e⟩
    · cases e
    · exact h.noEscape u e
  held c hc := by
    by_cases hn : c = s.accepted
    · subst hn
      exact ⟨t, by simp [State.setThread, AcceptPc.client]⟩
    · obtain ⟨u, hu⟩ := h.held c (by simpa [State.setThread, State.setClient, hn] using hc)
      have hne : u ≠ t := by
        rintro rfl
        rw [ht] at hu
        cases hu
      exact ⟨u, by simpa [State.setThread, State.setClient, hne] using hu⟩
  kept c hc := by
    by_cases hn : c = s.accepted
    · subst hn
      simp [State.setThread, State.setClient] at hc
    · exact h.kept c (by simpa [State.setThread, State.setClient, hn] using hc)
  known c := by
    by_cases hn : c = s.accepted
    · subst hn
      simp [State.setThread, State.setClient]
    · have hk := h.known c
      simp only [State.setThread, State.setClient, Function.update_of_ne hn, ← hk]
      omega
  inHand u c hu := by
    rcases setThread_cases (rfl : _ = (State.setThread _ t _).threads u) with ⟨-, e⟩ | ⟨-, e⟩
    · rw [← e, AcceptPc.client, Option.some.injEq] at hu
      exact hu ▸ Nat.lt_succ_self _
    · rw [← e] at hu
      exact Nat.lt_succ_of_lt (h.inHand u c hu)
  fresh u hu := by
    have hne : u ≠ t := by
      rintro rfl
      rw [h.fresh u hu] at ht
      cases ht
    simpa [State.setThread, State.setClient, hne] using h.fresh u hu

theorem Inv.lt_spawned (h : Inv s) (ht : s.threads t ≠ .absent) : t < s.spawned := by
  by_contra hn
  exact ht (h.fresh t (Nat.le_of_not_lt hn))

theorem Inv.acceptStep {ok : Bool} (h : Inv s) (hg : Orderly s (.accept t ok))
    (hs : acceptStep s t ok = some s') : Inv s' := by
  unfold ProtectServer.acceptStep at hs
  cases ht : s.threads t with
  | absent => simp [ht] at hs
  | ended => simp [ht] at hs
  | crashed => simp [ht] at hs
  | test srv =>
    simp only [ht, Option.some.injEq] at hs
    subst hs
    refine h.setThread (h.lt_spawned (by simp [ht])) ?_ ?_ ?_ ?_ ?_ <;>
      split_ifs <;> simp [ht, AcceptPc.client]
  | enter srv =>
    simp only [ht, Option.some.injEq] at hs
    subst hs
    refine h.setThread (h.lt_spawned (by simp [ht])) ?_ ?_ ?_ ?_ ?_ <;>
      split_ifs <;> simp [ht, AcceptPc.client]
  | blocked srv =>
    simp only [ht, Option.some.injEq] at hs
    subst hs
    cases ok with
    | true => exact h.accepts ht (hg rfl srv ht)
    | false =>
      refine h.setThread (h.lt_spawned (by simp [ht])) ?_ ?_ ?_ ?_ ?_ <;> simp [ht, AcceptPc.client]
  | fetch srv c =>
    obtain ⟨p, hp, hdown⟩ := h.fetch t srv c ht
    simp only [ht, hp, Option.some.injEq] at hs
    subst hs
    refine h.setThread (h.lt_spawned (by simp [ht])) ?_ ?_ (by simp) ?_ (by simp)
    · intro d hd _
      rw [ht] at hd
      exact hd
    · intro d hd
      exact h.inHand t d (by rw [ht]; exact hd)
    · intro srv' c' p' e
      cases e
      exact hdown
  | submit srv c p =>
    have hc : c < s.accepted := h.inHand t c (by rw [ht]; rfl)
    simp only [ht, h.submit t srv c p ht, Bool.false_eq_true, if_false, Option.some.injEq] at hs
    subst hs
    refine (h.setClient (y := .queued p) hc (by simp) (by simp) (by simp)).setThread
      (h.lt_spawned (by simp [ht])) ?_ (by simp [AcceptPc.client]) (by simp) (by simp) (by simp)
    -- the thread lets go of the client that it has queued
    intro d hd hq
    have hd' : d = c := by
      change (s.threads t).client = some d at hd
      rw [ht] at hd
      exact (Option.some.inj hd).symm
    subst hd'
    simp [State.setClient] at hq

theorem Inv.newPool (h : Inv s) (p : ℕ) :
    Inv { s with
      pools := s.pools + 1, shutDown := Function.update s.shutDown p false, executor := some p } where
  fetch _ _ _ _ := ⟨p, rfl, Function.update_self ..⟩
  submit u srv c q hu := by
    by_cases hq : q = p
    · subst hq
      exact Function.update_self ..
    · simpa [hq] using h.submit u srv c q hu
  noEscape := h.noEscape
  held := h.held
  kept := h.kept
  known := h.known
  inHand := h.inHand
  fresh := h.fresh

/-- The pool is shut down while no client is on its way to it. -/
theorem Inv.shutdownNow (h : Inv s)
    (hg : ∀ p, s.executor = some p → (∀ t, (s.threads t).client = none) ∧ ∀ c, s.clients c ≠ .queued p) :
    Inv (s.shutdownNow s.executor) := by
  cases he : s.executor with
  | none => exact h
  | some p =>
    obtain ⟨hnone, hq⟩ := hg p he
    have hclients : (s.shutdownNow (some p)).clients = s.clients := by
      funext c
      exact if_neg (hq c)
    refine ⟨?_, ?_, h.noEscape, ?_, ?_, ?_, h.inHand, h.fresh⟩
    · intro u srv c hu
      have := hnone u
      rw [show s.threads u = _ from hu] at this
      cases this
    · intro u srv c q hu
      have := hnone u
      rw [show s.threads u = _ from hu] at this
      cases this
    · rw [hclients]
      exact h.held
    · rw [hclients]
      exact h.kept
    · rw [hclients]
      exact h.known

theorem Inv.spawn (h : Inv s) (n : ℕ) :
    Inv ({ s with spawned := s.spawned + 1 }.setThread s.spawned (.test n)) := by
  have habs := h.fresh s.spawned (Nat.le_refl _)
  have h' : Inv { s with spawned := s.spawned + 1 } :=
    { h with fresh := fun t ht => h.fresh t (Nat.le_of_succ_le ht) }
  refine h'.setThread (Nat.lt_succ_self _) ?_ ?_ ?_ ?_ ?_ <;> simp [AcceptPc.client, habs]

theorem Inv.close (h : Inv s) (n : Option ℕ) : Inv (s.close n) := by
  cases n <;> exact h.of_eq rfl rfl rfl rfl rfl rfl

theorem Inv.setCaller (h : Inv s) (i : ℕ) (pc : CallerPc) : Inv (s.setCaller i pc) :=
  h.of_eq rfl rfl rfl rfl rfl rfl

theorem Inv.stopStep {i : ℕ} {pc : StopPc} {ok : Bool} (h : Inv s) (hg : Orderly s (.caller i ok))
    (hi : s.callers i = .stopping pc) : Inv (stopStep s i pc) := by
  cases pc with
  | shutdownNow => exact (h.shutdownNow (hg.1 hi)).setCaller i _
  | clearExecutor =>
    have hf := hg.2 hi
    refine Inv.setCaller ?_ i _
    exact { h with fetch := fun t srv c ht => absurd ht (hf t srv c) }
  | closeServer => exact (h.close _).setCaller i _
  | closeBound => exact (h.close _).setCaller i _
  | clearRunning => exact h.of_eq rfl rfl rfl rfl rfl rfl
  | interrupt => exact h.of_eq rfl rfl rfl rfl rfl rfl
  | clearServer => exact h.of_eq rfl rfl rfl rfl rfl rfl
  | clearBound => exact h.of_eq rfl rfl rfl rfl rfl rfl
  | clearThread => exact h.of_eq rfl rfl rfl rfl rfl rfl

theorem Inv.callerStep {i : ℕ} {ok : Bool} (h : Inv s) (hg : Orderly s (.caller i ok))
    (hs : callerStep s i ok = some s') : Inv s' := by
  unfold ProtectServer.callerStep at hs
  cases hi : s.callers i with
  | idle => simp [hi] at hs
  | stopping pc =>
    simp only [hi, Option.some.injEq] at hs
    exact hs ▸ h.stopStep hg hi
  | newPool n =>
    simp only [hi, Option.some.injEq] at hs
    exact hs ▸ (h.newPool s.pools).setCaller i _
  | spawn n =>
    simp only [hi, Option.some.injEq] at hs
    exact hs ▸ (h.spawn n).setCaller i _
  | bind =>
    simp only [hi, Option.some.injEq] at hs
    subst hs
    cases ok <;> exact h.of_eq rfl rfl rfl rfl rfl rfl
  | test =>
    simp only [hi, Option.some.injEq] at hs
    exact hs ▸ h.setCaller i _
  | listen n =>
    simp only [hi, Option.some.injEq] at hs
    exact hs ▸ h.setCaller i _
  | keepBound n =>
    simp only [hi, Option.some.injEq] at hs
    exact hs ▸ h.of_eq rfl rfl rfl rfl rfl rfl
  | keepServer n =>
    simp only [hi, Option.some.injEq] at hs
    exact hs ▸ h.of_eq rfl rfl rfl rfl rfl rfl
  | setRunning n =>
    simp only [hi, Option.some.injEq] at hs
    exact hs ▸ h.of_eq rfl rfl rfl rfl rfl rfl
  | keepThread t =>
    simp only [hi, Option.some.injEq] at hs
    exact hs ▸ h.of_eq rfl rfl rfl rfl rfl rfl

theorem Inv.known_of (h : Inv s) (hc : s.clients c ≠ .unknown) : c < s.accepted := (h.known c).mpr hc

theorem step_inv (h : Inv s) (hg : Orderly s l) (hs : step s l = some s') : Inv s' := by
  cases l with
  | callStart i =>
    simp only [step, Option.ite_none_right_eq_some, Option.some.injEq] at hs
    exact hs.2 ▸ h.setCaller i _
  | callStop i =>
    simp only [step, Option.ite_none_right_eq_some, Option.some.injEq] at hs
    exact hs.2 ▸ h.setCaller i _
  | caller i ok => exact h.callerStep hg hs
  | accept t ok => exact h.acceptStep hg hs
  | take c =>
    cases hc : s.clients c with
    | queued p =>
      simp only [step, hc, Option.some.injEq] at hs
      exact hs ▸ h.setClient (h.known_of (by simp [hc])) (by simp) (by simp) (by simp)
    | _ => simp [step, hc] at hs
  | finish c =>
    cases hc : s.clients c with
    | active p =>
      simp only [step, hc, Option.some.injEq] at hs
      exact hs ▸ h.setClient (h.known_of (by simp [hc])) (by simp) (by simp) (by simp)
    | _ => simp [step, hc] at hs

/-- When everything is over, every accepted client has been handled. -/
theorem Inv.settled (h : Inv s) (hf : Finished s) (hc : c < s.accepted) : s.clients c = .handled := by
  obtain ⟨-, hover, hpools⟩ := hf
  cases hx : s.clients c with
  | handled => rfl
  | unknown => exact absurd hx ((h.known c).mp hc)
  | lost => exact absurd hx (h.kept c)
  | queued p => exact absurd hx (hpools c p).1
  | active p => exact absurd hx (hpools c p).2
  | held =>
    obtain ⟨t, ht⟩ := h.held c hx
    have hover := hover t
    cases hpc : s.threads t <;> simp [hpc, AcceptPc.client, AcceptPc.over] at ht hover

/-- **`stop` is safe against the accept loop** along every orderly run: no exception leaves an accept
thread, no client goes to a pool that was shut down, and once all threads are done every client that
`accept()` returned has been handled. -/
theorem stop_safe (s : State) (h : Reachable step {} Orderly s) : Safe s := by
  have hinv : Inv s := h.invariant inv_init fun _ _ _ _ hi hg hs => step_inv hi hg hs
  exact ⟨hinv.noEscape, hinv.submit, fun hf c hc => hinv.settled hf hc⟩

/-- `Orderly`, decided over the threads and clients there are. -/
def orderly (s : State) : Label → Bool
  | .caller i _ =>
    match s.callers i with
    | .stopping .shutdownNow =>
      ((List.range s.spawned).all fun t => (s.threads t).client = none) &&
        (List.range s.accepted).all fun c => decide (∀ p ∈ s.executor, s.clients c ≠ .queued p)
    | .stopping .clearExecutor => (List.range s.spawned).all fun t => (s.threads t).client = none
    | _ => true
  | .accept t true =>
    match s.threads t with
    | .blocked _ => decide (∃ p ∈ s.executor, s.shutDown p = false)
    | _ => true
  | _ => true

theorem Inv.client_none (h : Inv s) (hall : ((List.range s.spawned).all fun t =>
    (s.threads t).client = none) = true)
    (t : ℕ) : (s.threads t).client = none := by
  by_cases ht : t < s.spawned
  · simpa using List.all_eq_true.mp hall t (List.mem_range.mpr ht)
  · rw [h.fresh t (Nat.le_of_not_lt ht)]
    rfl

theorem orderly_of_check (h : Inv s) (hl : orderly s l = true) : Orderly s l := by
  cases l with
  | caller i ok =>
    refine ⟨fun hi p hp => ?_, fun hi t srv c ht => ?_⟩
    · simp only [orderly, hi, Bool.and_eq_true] at hl
      refine ⟨h.client_none hl.1, fun c hc => ?_⟩
      have := List.all_eq_true.mp hl.2 c (List.mem_range.mpr (h.known_of (by simp [hc])))
      exact of_decide_eq_true this p hp hc
    · simp only [orderly, hi] at hl
      have := h.client_none hl t
      rw [ht] at this
      cases this
  | accept t ok =>
    intro hok srv ht
    subst hok
    simp only [orderly, ht, decide_eq_true_eq] at hl
    exact hl
  | _ => trivial

/-- `start`, called by `i`. -/
def startLabels (i : ℕ) : List Label := .callStart i :: List.replicate 9 (.caller i true)

/-- A client is accepted, handled, and the server stopped. -/
theorem stop_safe_startStop :
    ∃ s, Reachable step {} Orderly s ∧ s.accepted = 1 ∧ s.executor = none ∧ Safe s := by
  obtain ⟨s, hs, hf⟩ := reachable_of_run step {} (c := orderly)
    (fun s l hr => orderly_of_check (hr.invariant inv_init fun _ _ _ _ hi hg hs => step_inv hi hg hs))
    (startLabels 0 ++ List.replicate 5 (.accept 0 true) ++ [.take 0, .finish 0, .callStop 1] ++
      List.replicate 9 (.caller 1 true) ++ [.accept 0 true])
    (fun s => (s.accepted, s.executor)) (b := (1, none)) (by decide +kernel)
  exact ⟨s, hs, congrArg Prod.fst hf, congrArg Prod.snd hf, stop_safe s hs⟩

/-- A client is accepted and the pool read; `stop` shuts the pool down before `execute` is called. -/
theorem accept_thread_crashes : ¬ ∀ s, Reachable step {} anyStep s → Safe s := by
  intro h
  obtain ⟨s, hs, hf⟩ := reachable_of_run step {} anyStep_of_true
    (startLabels 0 ++ List.replicate 4 (.accept 0 true) ++ .callStop 1 :: List.replicate 4 (.caller 1 true) ++
      [.accept 0 true])
    (fun s => s.threads 0) (b := .crashed) (by decide +kernel)
  exact (h s hs).noEscape 0 hf

end BypassVpn.ProtectServer
