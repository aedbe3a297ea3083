import BypassVpn.Tun2socks.Bridge

/-!
# The descriptors of the tun2socks bridge

The duplicate of the TUN descriptor goes to `BTap_Init2` with `BTAP_INIT_FD`, for which `BTap_Free` does
not close it. Nothing else is left open.

* `FdPart`: the part of the state that is about descriptors; `FdOk`: which of the variables hold an open
  one, with `FdOk.opens` and `FdOk.closes`.
* `live`, `FdInv`: which these are at each statement.
* **`descriptors_left`**: between calls, one duplicate is open for each time `BTap_Init2` has succeeded.
-/

namespace BypassVpn.Tun2socks

open Ledger Transition

/-- The variables that hold a descriptor to close. -/
inductive Slot where
  | efd
  | stopRead
  | stopWrite
  | dup
  deriving DecidableEq

/-- What the descriptors are about. -/
structure FdPart where
  fds : List (Ledger.Event Descriptor)
  nextFd : ℕ
  stopPipe : Option Descriptor × Option Descriptor
  efd : Option Descriptor
  dupFd : Option Descriptor
  device : Option BTap
  tapInits : ℕ

/-- The part of a state. -/
def State.fdPart (s : State) : FdPart where
  fds := s.fds
  nextFd := s.nextFd
  stopPipe := s.stopPipe
  efd := s.efd
  dupFd := s.dupFd
  device := s.device
  tapInits := s.tapInits

/-- The descriptor in a variable. -/
def FdPart.slot (p : FdPart) : Slot → Option Descriptor
  | .efd => p.efd
  | .stopRead => p.stopPipe.1
  | .stopWrite => p.stopPipe.2
  | .dup => p.dupFd

/-- A descriptor on the TUN interface, opened by the bridge. -/
def Descriptor.OnTun (d : Descriptor) : Prop := ∃ i, d = .own i .tun

/-- The variables `vs` hold the open descriptors, with the duplicates that `BTap_Init2` took over. -/
structure FdOk (vs : List Slot) (p : FdPart) : Prop where
  defined : ∀ v ∈ vs, (p.slot v).isSome
  left : ∃ taken, taken.length = p.tapInits ∧ (∀ d ∈ taken, d.OnTun) ∧
    Leaves p.fds (vs.filterMap p.slot ++ taken)
  below : ∀ d ∈ opens p.fds, ∃ i f, d = .own i f ∧ i < p.nextFd
  dup : ∀ d, p.dupFd = some d → d.OnTun
  device : ∀ d, p.device = some d → d.closeFd = false

section FdOk

variable {vs vs' : List Slot} {v : Slot} {p p' : FdPart} {file : File}

/-- A descriptor is opened and stored in the variable `v`. -/
theorem FdOk.opens (h : FdOk vs p) (hv : p'.slot v = some (.own p.nextFd file))
    (hvs : ∀ w ∈ vs, p'.slot w = p.slot w) (hfds : p'.fds = p.fds ++ [.opened (.own p.nextFd file)])
    (hnext : p'.nextFd = p.nextFd + 1) (htaps : p'.tapInits = p.tapInits) (hdevice : p'.device = p.device)
    (hdup : ∀ d, p'.dupFd = some d → d.OnTun) : FdOk (v :: vs) p' where
  defined := by
    intro w hw
    rcases List.mem_cons.mp hw with rfl | hw
    · rw [hv]
      rfl
    · rw [hvs w hw]
      exact h.defined w hw
  left := by
    obtain ⟨taken, hlen, htun, hleft⟩ := h.left
    have hnew : Descriptor.own p.nextFd file ∉ Ledger.opens p.fds := by
      intro hmem
      obtain ⟨i, f, he, hi⟩ := h.below _ hmem
      cases he
      exact lt_irrefl _ hi
    refine ⟨taken, htaps ▸ hlen, htun, ?_⟩
    rw [hfds, List.filterMap_cons_some hv, List.filterMap_congr hvs]
    exact hleft.opened hnew
  below := by
    intro d hd
    rw [hfds, opens_append] at hd
    rw [hnext]
    rcases List.mem_append.mp hd with hd | hd
    · obtain ⟨i, f, he, hi⟩ := h.below d hd
      exact ⟨i, f, he, by omega⟩
    · exact ⟨p.nextFd, file, List.mem_singleton.mp hd, by omega⟩
  dup := hdup
  device := hdevice ▸ h.device

/-- The descriptor in the variable `v` is closed. -/
theorem FdOk.closes {d : Descriptor} (h : FdOk vs p) (hvs : vs.Perm (v :: vs')) (hv : p.slot v = some d)
    (hp : p' = { p with fds := p.fds ++ [.closed d] }) : FdOk vs' p' := by
  subst hp
  obtain ⟨taken, hlen, htun, hleft⟩ := h.left
  have hperm : (vs.filterMap p.slot ++ taken).Perm (d :: (vs'.filterMap p.slot ++ taken)) := by
    have := hvs.filterMap p.slot
    rw [List.filterMap_cons_some hv] at this
    exact this.append_right taken
  refine ⟨fun w hw => h.defined w (hvs.mem_iff.mpr (List.mem_cons_of_mem v hw)),
    ⟨taken, hlen, htun, (hleft.congr hperm).closed⟩, ?_, h.dup, h.device⟩
  intro e he
  rw [opens_append] at he
  exact h.below e (by simpa using he)

theorem FdOk.takes {b : BTap} (h : FdOk (.dup :: vs) p) (hb : b.closeFd = false)
    (hp : p' = { p with device := some b, tapInits := p.tapInits + 1 }) : FdOk vs p' := by
  subst hp
  obtain ⟨taken, hlen, htun, hleft⟩ := h.left
  obtain ⟨d, hd⟩ := Option.isSome_iff_exists.mp (h.defined .dup List.mem_cons_self)
  refine ⟨fun w hw => h.defined w (List.mem_cons_of_mem _ hw), ⟨d :: taken, ?_, ?_, ?_⟩, h.below, h.dup, ?_⟩
  · rw [List.length_cons, hlen]
  · intro e he
    rcases List.mem_cons.mp he with rfl | he
    · exact h.dup e hd
    · exact htun e he
  · rw [List.filterMap_cons_some hd] at hleft
    exact hleft.congr List.perm_middle.symm
  · intro e he
    cases he
    exact hb

/-- The variables for the stop pipe hold nothing that is open. -/
theorem FdOk.cleared (h : FdOk [.efd] p) (hp : p' = { p with stopPipe := (none, none) }) :
    FdOk [.efd] p' := by
  subst hp
  exact { h with
    defined := fun w hw => by
      cases List.mem_singleton.mp hw
      exact h.defined .efd List.mem_cons_self }

theorem FdOk.freed (h : FdOk vs p) (hp : p' = { p with device := none }) : FdOk vs p' := by
  subst hp
  exact { h with device := fun d hd => nomatch hd }

end FdOk

/-! ### Along a call -/

/-- The variables that hold an open descriptor when the statement runs. -/
def live : Pc → List Slot
  | .idle | .globalInit | .processArguments | .reactorInit | .succeed | .failLog => []
  | .pipe | .failReactor | .freeReactor | .clearStopPipe | .failClear => [.efd]
  | .closeStopWrite | .failPipeWrite => [.stopWrite, .efd]
  | .tapInit | .closeDup => [.dup, .stopWrite, .stopRead, .efd]
  | _ => [.stopWrite, .stopRead, .efd]

/-- `bridge_stop_pipe` is `{-1, -1}`. -/
def cleared : Pc → Bool
  | .idle | .globalInit | .processArguments | .reactorInit | .pipe | .freeReactor | .succeed | .failReactor
  | .failLog => true
  | _ => false

/-- What holds of the descriptors in every state. -/
structure FdInv (s : State) : Prop where
  ok : FdOk (live s.pc) s.fdPart
  pipe : cleared s.pc = true → s.stopPipe = (none, none)

theorem fdInv_init : FdInv init where
  ok :=
    { defined := fun _ hv => nomatch hv
      left := ⟨[], rfl, (fun _ hd => nomatch hd), Leaves.nil⟩
      below := fun _ hd => nomatch hd
      dup := fun _ hd => nomatch hd
      device := fun _ hd => nomatch hd }
  pipe _ := rfl

variable {s s' : State}

theorem FdInv.moves (h : FdInv s) (hp : s'.fdPart = s.fdPart)
    (hpc : live s'.pc = live s.pc ∧ (cleared s'.pc = true → cleared s.pc = true)) : FdInv s' where
  ok := by
    rw [hp, hpc.1]
    exact h.ok
  pipe hc := (congrArg FdPart.stopPipe hp).trans (h.pipe (hpc.2 hc))

/-- The descriptor in the variable `v` is closed, and it is not the pipe that is cleared. -/
theorem FdInv.closes {v : Slot} (h : FdInv s) (hlive : (live s.pc).Perm (v :: live s'.pc))
    (hp : s'.fdPart = (s.closeFd (s.fdPart.slot v)).fdPart)
    (hc : cleared s'.pc = true → cleared s.pc = true) : FdInv s' := by
  obtain ⟨d, hd⟩ := Option.isSome_iff_exists.mp (h.ok.defined v (hlive.mem_iff.mpr List.mem_cons_self))
  rw [hd] at hp
  refine ⟨h.ok.closes hlive hd hp, fun hcl => ?_⟩
  exact (congrArg FdPart.stopPipe hp).trans (h.pipe (hc hcl))

theorem Turn.fdPart (h : Turn s s') : s'.fdPart = s.fdPart ∧ s'.pc = s.pc := by
  cases h <;> exact ⟨rfl, rfl⟩

theorem btapFree_eq (h : ∀ d, s.device = some d → d.closeFd = false) :
    s.btapFree = { s.release .device with device := none } := by
  unfold State.btapFree
  dsimp only
  cases hd : s.device with
  | none => simp only [State.release, hd]
  | some b => simp only [State.release, hd, h b hd, Bool.false_eq_true, if_false]

theorem FdInv.btapFree {pc : Pc} (h : FdInv s) (hlive : live pc = live s.pc)
    (hc : cleared pc = true → cleared s.pc = true) : FdInv (s.btapFree.goto pc) := by
  rw [btapFree_eq h.ok.device]
  refine ⟨?_, fun hcl => h.pipe (hc hcl)⟩
  have hok := h.ok
  rw [← hlive] at hok
  exact hok.freed rfl

theorem FdInv.reactorFree {ndebug : Bool} {pc : Pc} (h : FdInv s) (hlive : live s.pc = [.efd])
    (hl : live pc = [])
    (hc : cleared s.pc = true) : FdInv (s.reactorFree ndebug pc) := by
  unfold State.reactorFree
  split
  · exact h.moves rfl ⟨rfl, id⟩
  · refine h.closes (v := .efd) ?_ rfl fun _ => hc
    rw [hlive, show live ((s.closeFd s.efd).goto pc).pc = [] from hl]

variable {ndebug ok : Bool}

theorem FdInv.reactorInit_exec (h : FdInv s) (hpc : s.pc = .reactorInit) (hs : exec ndebug s ok = some s') :
    FdInv s' := by
  simp only [exec, hpc] at hs
  cases ok with
  | false =>
    cases hs
    exact h.moves rfl (by simp [hpc, live, cleared, State.goto])
  | true =>
    cases hs
    refine ⟨?_, fun _ => h.pipe (by rw [hpc]; rfl)⟩
    have hok := h.ok
    rw [hpc] at hok
    exact hok.opens rfl (fun w hw => nomatch hw) rfl rfl rfl rfl h.ok.dup

theorem FdInv.pipe_exec (h : FdInv s) (hpc : s.pc = .pipe) (hs : exec ndebug s ok = some s') : FdInv s' := by
  simp only [exec, hpc] at hs
  cases ok with
  | false =>
    cases hs
    exact h.moves rfl (by simp [hpc, live, cleared, State.goto])
  | true =>
    cases hs
    refine ⟨?_, fun hc => nomatch hc⟩
    have hok := h.ok
    rw [hpc] at hok
    have hread : FdOk [.stopRead, .efd]
        { (s.openFd .stopRead).fdPart with stopPipe := (some (s.fresh .stopRead), none) } :=
      hok.opens rfl (fun w hw => by cases List.mem_singleton.mp hw; rfl) rfl rfl rfl rfl h.ok.dup
    refine hread.opens rfl (fun w hw => ?_) rfl rfl rfl rfl h.ok.dup
    rcases List.mem_cons.mp hw with rfl | hw
    · rfl
    · cases List.mem_singleton.mp hw
      rfl

theorem FdInv.dup_exec (h : FdInv s) (hpc : s.pc = .dup) (hs : exec ndebug s ok = some s') : FdInv s' := by
  simp only [exec, hpc] at hs
  cases ok with
  | false =>
    cases hs
    exact h.moves rfl (by simp [hpc, live, cleared, State.goto])
  | true =>
    cases hs
    refine ⟨?_, fun hc => nomatch hc⟩
    have hok := h.ok
    rw [hpc] at hok
    refine hok.opens rfl (fun w hw => ?_) rfl rfl rfl rfl fun d hd => ?_
    · rcases List.mem_cons.mp hw with rfl | hw
      · rfl
      · rcases List.mem_cons.mp hw with rfl | hw
        · rfl
        · cases List.mem_singleton.mp hw
          rfl
    · cases hd
      exact ⟨s.nextFd, rfl⟩

theorem FdInv.tapInit_exec (h : FdInv s) (hpc : s.pc = .tapInit) (hs : exec ndebug s ok = some s') : FdInv s' := by
  simp only [exec, hpc] at hs
  cases ok with
  | false =>
    cases hs
    exact h.moves rfl (by simp [hpc, live, cleared, State.goto])
  | true =>
    obtain ⟨fd, -, rfl⟩ := Option.map_eq_some_iff.mp hs
    have hok := h.ok
    rw [hpc] at hok
    refine ⟨hok.takes (b := ⟨fd, _, _⟩) ?_ rfl, fun hc => nomatch hc⟩
    rfl

theorem fdInv_exec (h : FdInv s) (hs : exec ndebug s ok = some s') : FdInv s' := by
  cases hpc : s.pc
  case reactorInit => exact h.reactorInit_exec hpc hs
  case pipe => exact h.pipe_exec hpc hs
  case dup => exact h.dup_exec hpc hs
  case tapInit => exact h.tapInit_exec hpc hs
  all_goals simp only [exec, hpc] at hs
  case idle => cases hs
  case globalInit | processArguments | fcntl =>
    cases hs
    cases ok <;> exact h.moves rfl (by simp [hpc, live, cleared, State.goto])
  case addStopFd =>
    cases ok <;> cases hs <;> exact h.moves rfl (by simp [hpc, live, cleared, State.goto])
  case closeDup =>
    cases hs
    refine h.closes (v := .dup) ?_ rfl fun hc => nomatch hc
    rw [hpc]
    rfl
  case readInterface | udpClient | initJob | tcpTimer | removeTimer | freeWriteBuf | freeInitJob | freeUdpClient
      | freeReadBuffer | freeReadInterface | removeStopFd | succeed | failUdpmode | failReadBuffer | failTap
      | failStopfd | failLog =>
    cases hs
    exact h.moves rfl (by simp [hpc, live, cleared, State.goto])
  case readBuffer | alloc =>
    cases ok <;> cases hs <;> exact h.moves rfl (by simp [hpc, live, cleared, State.goto])
  case loop =>
    split at hs
    · cases hs
      exact h.moves rfl (by simp [hpc, live, cleared, State.goto])
    · cases hs
  case murder =>
    split at hs
    · next hcs =>
      cases hs
      obtain ⟨hp, hpc'⟩ := (turn_clientMurder hcs).fdPart
      exact h.moves hp (by rw [hpc']; exact ⟨rfl, id⟩)
    · cases hs
      exact h.moves rfl (by simp [hpc, live, cleared])
  case freeTap | failDevice =>
    cases hs
    exact h.btapFree (by rw [hpc]; rfl) fun hc => nomatch hc
  case closeStopRead | failPipe =>
    cases hs
    refine h.closes (v := .stopRead) ?_ rfl fun hc => nomatch hc
    rw [hpc]
    exact .swap _ _ _
  case closeStopWrite | failPipeWrite =>
    cases hs
    refine h.closes (v := .stopWrite) ?_ rfl fun hc => nomatch hc
    rw [hpc]
    rfl
  case clearStopPipe | failClear =>
    cases hs
    refine ⟨?_, fun _ => rfl⟩
    have hok := h.ok
    rw [hpc] at hok
    exact hok.cleared rfl
  case freeReactor | failReactor =>
    cases hs
    exact h.reactorFree (by rw [hpc]; rfl) rfl (by rw [hpc]; rfl)

/-- What one step preserves. -/
theorem fdInv_step {l : Label} (h : FdInv s) (hs : step ndebug s l = some s') : FdInv s' := by
  unfold step at hs
  split at hs
  · cases hs
  · cases l with
    | run cfg =>
      dsimp only at hs
      split at hs
      · cases hs
      · next hpc =>
        rw [not_not] at hpc
        split at hs
        · cases hs
          exact h.moves rfl (by simp [hpc, live, cleared])
        · cases hs
          exact h.moves rfl ⟨rfl, id⟩
    | next ok => exact fdInv_exec h hs
    | event e =>
      dsimp only at hs
      split at hs
      · obtain ⟨hp, hpc⟩ := (handle_turn hs).fdPart
        exact h.moves hp (by rw [hpc]; exact ⟨rfl, id⟩)
      · cases hs
    | stopCall =>
      dsimp only at hs
      split at hs
      · cases hs
        exact h.moves rfl ⟨rfl, id⟩
      · cases hs
        exact h
    | stopWrite =>
      dsimp only at hs
      split at hs
      · cases hs
      · split at hs
        · cases hs
          exact h.moves rfl ⟨rfl, id⟩
        · cases hs
          exact h.moves rfl ⟨rfl, id⟩

theorem fdInv (h : Reachable (step ndebug) init anyStep s) : FdInv s :=
  h.invariant fdInv_init fun _ _ _ _ hi _ hs => fdInv_step hi hs

/-- **What the bridge leaves open.** In any sequence of calls, with any outcomes and with
`tun2socks_bridge_stop` in between: when no call is under way the stop pipe is `{-1, -1}`, one
descriptor on the TUN interface is left open for each time `BTap_Init2` has succeeded, and everything
else that was opened has been closed exactly once. -/
theorem descriptors_left (h : Reachable (step ndebug) init anyStep s) (hpc : s.pc = .idle) :
    s.stopPipe = (none, none) ∧
    (∃ taken, taken.length = s.tapInits ∧ (∀ d ∈ taken, d.OnTun) ∧ Leaves s.fds taken) ∧
    (Balanced s.fds ↔ s.tapInits = 0) := by
  obtain ⟨hok, hpipe⟩ := fdInv h
  rw [hpc] at hok hpipe
  obtain ⟨taken, hlen, htun, hleft⟩ := hok.left
  have hleft : Leaves s.fds taken := hleft
  refine ⟨hpipe rfl, ⟨taken, hlen, htun, hleft⟩, ?_⟩
  rw [hleft.balanced_iff, ← List.length_eq_zero_iff, hlen]
  rfl

/-- `tun2socks_bridge_run` gets as far as `dup`, which fails. -/
def dupFails : List Label := .run (some bridgeConfig) :: List.replicate 6 (.next true) ++
    List.replicate 7 (.next false)

theorem descriptors_left_dupFails :
    ∃ s, Reachable (step false) init anyStep s ∧ s.result = some (-1) ∧ (opens s.fds).length = 3 ∧
      s.stopPipe = (none, none) ∧ Balanced s.fds := by
  obtain ⟨s, hs, hf⟩ := reachable_of_run (step false) init (c := fun _ _ => true) anyStep_of_true dupFails
    (fun s => (s.pc, s.result, (opens s.fds).length, s.tapInits)) (b := (.idle, some (-1), 3, 0))
    (by decide +kernel)
  simp only [Prod.mk.injEq] at hf
  obtain ⟨hpipe, -, hiff⟩ := descriptors_left hs hf.1
  exact ⟨s, hs, hf.2.1, hf.2.2.1, hpipe, hiff.mpr hf.2.2.2⟩

/-- The setup succeeds, `tun2socks_bridge_stop` is called in the event loop, and the call returns 0. -/
def startStop : List Label :=
  .run (some bridgeConfig) :: List.replicate 14 (.next true) ++
    [.event (.initJob {}), .stopCall, .stopWrite, .event .stopPipe] ++ List.replicate 15 (.next true)

theorem descriptor_left_open : ¬ ∀ (ndebug : Bool) (s : State), Reachable (step ndebug) init anyStep s →
    s.pc = .idle → s.stopPipe = (none, none) ∧ Balanced s.fds := by
  intro h
  obtain ⟨s, hs, hf⟩ := reachable_of_run (step false) init (c := fun _ _ => true) anyStep_of_true startStop
    (fun s => (s.pc, s.result, (opens s.fds).length, (closes s.fds).length)) (b := (.idle, some 0, 4, 3))
    (by decide +kernel)
  simp only [Prod.mk.injEq] at hf
  have hlen := (h false s hs hf.1).2.length_eq
  rw [hf.2.2.1, hf.2.2.2] at hlen
  exact absurd hlen (by decide)

end BypassVpn.Tun2socks
