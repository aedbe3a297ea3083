import BypassVpn.Service.Parts
import BypassVpn.Service.Threads
import BypassVpn.Service.Tunnel

/-!
# One reader of the TUN

Either `runKotlinPacketLoop` or the native tun2socks should read the interface of a session. `runVpn`
chooses once, by the result of its `ProxyEngine.start`; `AsnAutoDetect` and `PresetMonitor` restart the
engine later and ignore the results of theirs.

* `KotlinReads`, `NativeReads`, `SingleReader`: the promise; `OneSession`: the runs it is about;
  `Consistent`: the starts of the session agree.
* `Pc.first`, `Pc.ahead`: what the first start returned, and whether a restart still has its tun2socks
  ahead.
* `ReadInv`, and **`single_reader`**; `two_readers`: the two can read at the same time.
-/

namespace BypassVpn.Service

open Transition

variable {env : Env} {s s' : State} {i j : ℕ} {o : Outcome} {a : Act} {pc pc' q : Pc}

/-! ### The promise -/

/-- `runKotlinPacketLoop` reads the interface. -/
def KotlinReads (s : State) (t : ℕ) : Prop :=
  ∃ i b, (s.threads i).pc = .runVpn (.packets b t) ∨ (s.threads i).pc = .runVpn (.read b t)

/-- The native tun2socks reads the interface. -/
def NativeReads (s : State) (t : ℕ) : Prop := ∃ n, (s.parts .tun2socks).job n = some (.bridge t)

/-- In `runNativeIdleLoop` or `runKotlinPacketLoop`. -/
def Pc.inLoop : Pc → Bool
  | .runVpn c =>
    match c with
    | .idle | .sleep | .packets .. | .read .. => true
    | _ => false
  | _ => false

/-- Inside a restart of the engine by `AsnAutoDetect` or `PresetMonitor`. -/
def Pc.restarting : Pc → Bool
  | .restart site _ | .start site _ _ | .stopLibs site | .stopTun2socks site _ | .stopCiadpi site _
  | .stopProtect site _ | .undoCiadpi site _ | .undoProtect site _ _ => site.restarts
  | _ => false

/-- No interface is read twice, and the interface of a session in its loop is read, unless a restart is
under way. -/
def SingleReader (s : State) : Prop :=
  (∀ t, ¬ (KotlinReads s t ∧ NativeReads s t)) ∧
    ∀ i, (s.threads i).pc.inLoop = true → (∀ j, (s.threads j).pc.restarting = false) →
      ∃ t, (s.tuns t).session = i ∧ (KotlinReads s t ∨ NativeReads s t)

/-- What the `ProxyEngine.start` of `runVpn` has returned. -/
def Pc.first : Pc → Option Bool
  | .runVpn c =>
    match c with
    | .interruptMonitor b | .spawnMonitor b | .keepMonitor b _ | .spawnAsn b | .enter b => some b
    | .idle | .sleep => some true
    | .packets .. | .read .. => some false
    | _ => none
  | _ => none

/-! ### The restriction -/

/-- The runs of one session: a single start, and no further command. -/
def OneSession (s : State) : Label → Prop
  | .deliver c => s.last = none ∧ ∃ id, c = .start id
  | _ => True

/-- A statement that decides whether `ProxyEngine.start` succeeds. -/
def Pc.fallible : Pc → Bool
  | .start _ _ c =>
    match c with
    | .ciadpiTest _ | .ciadpiCreate _ | .tun2socksTest | .tun2socksCreate => true
    | _ => false
  | _ => false

/-- The starts of the session agree: when the first has failed, no restart starts tun2socks; when it has
succeeded, every restart does; and tun2socks does not leave its loop unless it is being stopped. -/
def Consistent (s : State) : Label → Prop
  | .deliver c => OneSession s (.deliver c)
  | .run i o =>
    ((s.threads s.session).pc.first = some false → ∀ site b, (s.threads i).pc =
      .start site b .tun2socksCreate →
      o ≠ .ok) ∧
    ((s.threads s.session).pc.first = some true → (s.threads i).pc.restarting = true →
      (s.threads i).pc.fallible = true → o = .ok)
  | .exit p _ => p = .tun2socks →
    ∃ j, (s.threads j).pc.stage .tun2socks = .join ∨ ∃ t, (s.threads j).pc.stage .tun2socks = .joining t

/-! ### The invariant -/

/-- The tun2socks of a restart is still ahead. -/
def Pc.ahead : Pc → Bool
  | .restart site _ | .stopLibs site | .stopTun2socks site _ | .stopCiadpi site _ | .stopProtect site _
  | .undoProtect site _ _ => site.restarts
  | .start site _ c => site.restarts && (c ≠ .ciadpiUnset && c ≠ .tun2socksUnset)
  | _ => false

/-- A restart that has failed. -/
def Pc.failing : Pc → Bool
  | .start site _ c => site.restarts && (c = .ciadpiUnset || c = .tun2socksUnset)
  | .undoCiadpi site _ => site.restarts
  | _ => false

/-- The interface a program point speaks of. -/
def Pc.tunArg : Pc → Option ℕ
  | .runVpn c =>
    match c with
    | .store t => t
    | .call t | .packets _ t | .read _ t => some t
    | _ => none
  | .restart _ c =>
    match c with
    | .pause t | .call t => some t
    | _ => none
  | .start _ b _ | .undoProtect _ b _ => some b.tunFd
  | _ => none

/-- `monitorThread` may be set. -/
def Pc.monitored : Pc → Bool
  | .runVpn c =>
    match c with
    | .spawnAsn _ | .enter _ | .idle | .sleep | .packets .. | .read .. => true
    | _ => false
  | _ => false

/-- The session has found its interface. -/
def Pc.hasTun : Pc → Bool
  | .runVpn c =>
    match c with
    | .probe | .establish | .store _ | .test | .giveUp => false
    | _ => true
  | .start site _ _ | .undoCiadpi site _ | .undoProtect site _ _ => site = .session
  | _ => false

/-- The interface is the session's. -/
def Owned (s : State) (t : ℕ) : Prop := t < s.established ∧ (s.tuns t).session = s.session

/-- A thread of this kind may be there. -/
def KindOk (s : State) (j : ℕ) : Kind → Prop
  | .idle => True
  | .main => j = 0
  | .session => j = s.session ∧ 1 < s.spawned
  | .helper =>
    1 < s.spawned ∧ ((s.threads s.session).pc.inSession = true → (s.threads s.session).pc.first ≠ none)
  | .async => 1 < s.spawned ∧ (s.threads s.session).pc.inSession = false

/-- tun2socks runs, or a thread is past `g_running = 1` in `tun2socksStart`. -/
def Busy (s : State) : Prop :=
  (∃ n, (s.parts .tun2socks).job n ≠ none) ∨
    ∃ j, (s.threads j).pc.stage .tun2socks = .create ∨ (s.threads j).pc.stage .tun2socks = .unset

/-- Nothing has happened but the start command. -/
structure Blank (s : State) : Prop where
  tuns : s.established = 0
  part : s.parts .tun2socks = {}
  monitor : (s.fields 0).monitorThread = none
  tun : (s.fields 0).vpnInterface = none
  calm : ∀ j, s.interrupted j = false

/-- What holds until the session reaches its `finally` block. -/
structure Going (env : Env) (s : State) : Prop where
  calm : ∀ j, s.interrupted j = false
  monitor : (s.threads s.session).pc.monitored = false → (s.fields 0).monitorThread = none
  stored : ∀ t, (s.threads s.session).pc = .runVpn (.store (some t)) → (s.tuns t).isOpen = true
  test : (s.threads s.session).pc = .runVpn .test → ∀ t, (s.fields 0).vpnInterface = some t →
    (s.tuns t).isOpen = true
  tun : (s.threads s.session).pc.hasTun = true → ∃ t, (s.fields 0).vpnInterface = some t ∧
    (s.tuns t).isOpen = true
  libs : (s.threads s.session).pc.first = some true → env.nativeLibsLoaded = true
  native : (s.threads s.session).pc.first = some true →
    (∃ n, (s.parts .tun2socks).job n ≠ none) ∨ ∃ j, (s.threads j).pc.ahead = true
  firm : (s.threads s.session).pc.first = some true → ∀ j, (s.threads j).pc.failing = false
  silent : (s.threads s.session).pc.first ≠ some true → ∀ n, (s.parts .tun2socks).job n = none

/-- What holds in every state of a consistent run. -/
structure ReadInv (env : Env) (s : State) : Prop where
  objects : s.object = 0 ∧ ∀ j, (s.threads j).object = 0
  fits : ∀ j, (s.threads j).pc.fits = true
  kinds : ∀ j, KindOk s j (s.threads j).pc.kind
  begun : (s.last = none → s.spawned = 1 ∧ (s.threads 0).pc = .ended) ∧
    ∀ c, (s.threads 0).pc = .onStart c → (∀ t, c ≠ .keep t) → s.spawned = 1
  blank : s.spawned = 1 → Blank s
  args : ∀ j t, (s.threads j).pc.tunArg = some t → Owned s t
  field : ∀ t, (s.fields 0).vpnInterface = some t → Owned s t
  jobs : ∀ n b, (s.parts .tun2socks).job n = some b → ∃ t, b = .bridge t ∧ Owned s t
  flagged : (s.parts .tun2socks).running = true → Busy s
  going : (s.threads s.session).pc.inSession = true → Going env s

/-! ### What a statement does to the invariant -/

theorem Site.tunArg_after (b : Bool) (site : Site) :
    (site.started b).tunArg = none ∧ site.resume.tunArg = none ∧
    site.stopped.tunArg = none := by
  cases site <;> exact ⟨rfl, rfl, rfl⟩

theorem mem_openTun {t : ℕ} (h : openTun s i = some t) :
    (s.view i).vpnInterface = some t ∧ (s.tuns t).isOpen = true := by
  rw [openTun, Option.filter_eq_some_iff] at h
  exact h

theorem code_tunArg {t : ℕ} (h : code env s i pc o = some (a, pc')) (ht : pc'.tunArg = some t) :
    pc.tunArg = some t ∨ (s.view i).vpnInterface = some t ∨
      (a = .establish ∧ t = s.established ∧ pc.kind = .session) := by
  revert h
  cases pc with
  | ended => intro h; cases h
  | onStart c =>
    change OnStart.code s i c o = _ → _
    fun_cases OnStart.code s i c o <;> intro h <;> cases h <;> cases ht
  | stopVpn c =>
    change StopVpn.code s i c o = _ → _
    fun_cases StopVpn.code s i c o <;> intro h <;> cases h <;> cases ht
  | runVpn c =>
    change RunVpn.code env s i c o = _ → _
    fun_cases RunVpn.code env s i c o <;> intro h <;> cases h <;> cases ht
    · exact .inr (.inr ⟨rfl, rfl, rfl⟩)
    · exact .inr (.inl (mem_openTun ‹_›).1)
    · exact .inl rfl
    · exact .inr (.inl ‹_›)
    · exact .inl rfl
    · exact .inl rfl
  | asn c =>
    change AsnAutoDetect.code s i c o = _ → _
    fun_cases AsnAutoDetect.code s i c o <;> intro h <;> cases h <;> cases ht
  | monitor w c =>
    change PresetMonitor.code s i w c o = _ → _
    fun_cases PresetMonitor.code s i w c o <;> intro h <;> cases h <;> cases ht
  | restart site c =>
    change Restart.code s i site c o = _ → _
    fun_cases Restart.code s i site c o <;> intro h <;> cases h <;>
      first | (rw [(site.tunArg_after false).2.1] at ht; cases ht) | skip
    all_goals cases ht
    all_goals first | exact .inl rfl | exact .inr (.inl (mem_openTun ‹_›).1)
  | start site b c =>
    change Start.code env s site b c o = _ → _
    fun_cases Start.code env s site b c o <;> intro h <;> cases h <;>
      first | exact .inl ht | (rw [(site.tunArg_after _).1] at ht; cases ht) | cases ht
  | stopLibs site =>
    change stopLibs env site o = _ → _
    fun_cases stopLibs env site o <;> intro h <;> cases h <;>
      first | cases ht | (rw [(site.tunArg_after false).2.2] at ht; cases ht)
  | stopTun2socks site c =>
    change Stop.code s _ _ _ c o = _ → _
    fun_cases Stop.code s .tun2socks (.stopTun2socks site) (.stopCiadpi site .test) c o <;> intro h <;>
      cases h <;> cases ht
  | stopCiadpi site c =>
    change Stop.code s _ _ _ c o = _ → _
    fun_cases Stop.code s .ciadpi (.stopCiadpi site) (.stopProtect site .clear) c o <;> intro h <;>
      cases h <;> cases ht
  | stopProtect site c =>
    change StopServer.code _ _ c o = _ → _
    fun_cases StopServer.code (.stopProtect site) site.stopped c o <;> intro h <;> cases h <;>
      first | cases ht | (rw [(site.tunArg_after false).2.2] at ht; cases ht)
  | undoCiadpi site c =>
    change Stop.code s _ _ _ c o = _ → _
    fun_cases Stop.code s .ciadpi (.undoCiadpi site) (site.started false) c o <;> intro h <;> cases h <;>
      first | cases ht | (rw [(site.tunArg_after false).1] at ht; cases ht)
  | undoProtect site b c =>
    change StopServer.code _ _ c o = _ → _
    fun_cases StopServer.code (.undoProtect site b) (.start site b (.ciadpiTest false)) c o <;> intro h <;>
      cases h <;> exact .inl ht

theorem onTuns_session {t : ℕ} (ht : t < s.established) : (a.onTuns s i t).session = (s.tuns t).session := by
  cases a with
  | establish => rw [Act.onTuns, Function.update_of_ne (Nat.ne_of_lt ht)]
  | closeTun =>
    rw [Act.onTuns]
    cases (s.view i).vpnInterface with
    | none => rfl
    | some u =>
      by_cases htu : t = u
      · simp [htu]
      · simp [Function.update_of_ne htu]
  | _ => rfl

theorem session_after (hc : code env s i pc o = some (a, pc')) (pc₁ : Pc) :
    (after s i a pc₁).session = s.session ∨ pc = .onStart .spawn := by
  cases ha : a.spawns with
  | none => exact .inl (by simp [after, State.setPc, act, ha])
  | some q =>
    rcases code_spawns hc ha with ⟨h, -, -⟩ | ⟨-, rfl, -⟩ | ⟨b, -, rfl, -⟩ | ⟨b, -, rfl, -⟩
    · exact .inr h
    all_goals exact .inl (by simp [after, State.setPc, act, ha, Pc.isSession])

theorem ReadInv.spawned_eq (h : ReadInv env s) (hpc : (s.threads i).pc = .onStart .spawn) :
    s.spawned = 1 := by
  have hi : i = 0 := by
    have := h.kinds i
    rw [hpc] at this
    exact this
  subst hi
  exact h.begun.2 .spawn hpc (by simp)

theorem ReadInv.owned_after {t : ℕ} (h : ReadInv env s) (hc : code env s i (s.threads i).pc o = some (a, pc))
    (ht : Owned s t) : Owned (after s i a pc) t := by
  rcases session_after hc pc with hs | hpc
  · refine ⟨Nat.lt_of_lt_of_le ht.1 (le_established s i a pc), ?_⟩
    rw [hs, after_tuns, onTuns_session ht.1]
    exact ht.2
  · have := ht.1
    rw [(h.blank (h.spawned_eq hpc)).tuns] at this
    omega

theorem ReadInv.view_eq (h : ReadInv env s) (i : ℕ) : s.view i = s.fields 0 := by
  rw [State.view, h.objects.2 i]

theorem ReadInv.fields_after (h : ReadInv env s) : (after s i a pc).fields 0 = a.onFields (s.fields 0) := by
  have : (after s i a pc).fields (s.threads i).object = a.onFields (s.view i) := after_fields_self
  rwa [h.objects.2 i, h.view_eq] at this

theorem ReadInv.args_after (h : ReadInv env s) (hf : Fresh s)
    (hc : code env s i (s.threads i).pc o = some (a, pc)) (j t : ℕ)
    (ht : ((after s i a pc).threads j).pc.tunArg = some t) : Owned (after s i a pc) t := by
  rcases after_cases hf (pc_ne_ended hc) a pc j with ⟨rfl, he⟩ | ⟨q, ha, -, he⟩ | ⟨-, he⟩
  · rw [he] at ht
    rcases code_tunArg hc ht with hold | hold | ⟨rfl, rfl, hk⟩
    · exact h.owned_after hc (h.args j t hold)
    · rw [h.view_eq] at hold
      exact h.owned_after hc (h.field t hold)
    · -- the interface the session has just established
      have hj : j = s.session := by
        have := h.kinds j
        rw [hk] at this
        exact this.1
      refine ⟨by simp [after, State.setPc, act], ?_⟩
      rw [after_tuns, Act.onTuns, Function.update_self]
      exact hj.trans (by simp [after, State.setPc, act, Act.spawns])
  · rw [he] at ht
    rcases code_spawns hc ha with ⟨-, rfl, -⟩ | ⟨-, rfl, -⟩ | ⟨b, -, rfl, -⟩ | ⟨b, -, rfl, -⟩ <;> cases ht
  · rw [he] at ht
    exact h.owned_after hc (h.args j t ht)

theorem ReadInv.field_after (h : ReadInv env s) (hc : code env s i (s.threads i).pc o = some (a, pc)) (t : ℕ)
    (ht : ((after s i a pc).fields 0).vpnInterface = some t) : Owned (after s i a pc) t := by
  rw [h.fields_after] at ht
  rcases onFields_vpnInterface a (s.fields 0) with he | he
  · rw [he] at ht
    exact h.owned_after hc (h.field t ht)
  · rw [ht] at he
    subst he
    have hs := code_tun hc
    generalize hst : (s.threads i).pc.tunStage = st at hs
    generalize pc.tunStage = st' at hs
    cases hs with
    | idle hl => cases hl
    | closing hl => cases hl
    | store => exact h.owned_after hc (h.args i t (by rw [pc_of_store hst]; rfl))

theorem code_create {b : Job} (h : code env s i pc o = some (.create .tun2socks b, pc')) :
    ∃ site c, pc = .start site c .tun2socksCreate ∧ b = .bridge c.tunFd ∧ pc' = site.started true ∧
      o = .ok := by
  have hst := stage_of_acquires (p := .tun2socks) h rfl
  revert h
  cases pc with
  | start site c d =>
    change Start.code env s site c d o = _ → _
    fun_cases Start.code env s site c d o <;> intro h <;> cases h
    exact ⟨site, c, rfl, rfl, rfl, rfl⟩
  | stopTun2socks site c => cases c <;> rcases hst with hst | hst <;> cases hst
  | _ => rcases hst with hst | hst <;> cases hst

/-- A job of tun2socks was there before, or has just been started. -/
theorem job_tun2socks {x : PartState} {n : ℕ} {b : Job} (h : (a.onPart .tun2socks x).job n = some b) :
    x.job n = some b ∨ a = .create .tun2socks b := by
  cases a with
  | setFlag q c =>
    simp only [Act.onPart] at h
    split at h <;> exact .inl h
  | create q c =>
    simp only [Act.onPart] at h
    split at h
    · rename_i hq
      subst hq
      simp only [PartState.create] at h
      by_cases hn : n = x.created
      · rw [hn, Function.update_self] at h
        cases h
        exact .inr rfl
      · rw [Function.update_of_ne hn] at h
        exact .inl h
    · exact .inl h
  | _ => exact .inl h

theorem ReadInv.jobs_after (h : ReadInv env s) (hc : code env s i (s.threads i).pc o = some (a, pc)) (n : ℕ)
    (b : Job) (hn : ((after s i a pc).parts .tun2socks).job n = some b) :
    ∃ t, b = .bridge t ∧ Owned (after s i a pc) t := by
  rcases job_tun2socks hn with hold | rfl
  · obtain ⟨t, rfl, ht⟩ := h.jobs n b hold
    exact ⟨t, rfl, h.owned_after hc ht⟩
  · obtain ⟨site, c, hpc, rfl, -⟩ := code_create hc
    exact ⟨c.tunFd, rfl, h.owned_after hc (h.args i c.tunFd (by rw [hpc]; rfl))⟩

theorem job_onPart {n : ℕ} (x : PartState) (hn : x.job n ≠ none) : ∃ m,
    (a.onPart .tun2socks x).job m ≠ none := by
  cases a with
  | setFlag q c =>
    refine ⟨n, ?_⟩
    simp only [Act.onPart]
    split <;> exact hn
  | create q c =>
    simp only [Act.onPart]
    split
    · exact ⟨x.created, by simp [PartState.create]⟩
    · exact ⟨n, hn⟩
  | _ => exact ⟨n, hn⟩

theorem ReadInv.flagged_after (h : ReadInv env s) (hf : Fresh s)
    (hc : code env s i (s.threads i).pc o = some (a, pc))
    (hr : ((after s i a pc).parts .tun2socks).running = true) : Busy (after s i a pc) := by
  have hself : (after s i a pc).threads i = { pc := pc, object := (s.threads i).object } :=
    after_self (Nat.ne_of_lt (hf.lt (pc_ne_ended hc)))
  have hs := code_part .tun2socks hc
  rw [after_parts] at hr
  -- a flag that was set before: the same reason holds, unless it was this thread
  have hold : (s.parts .tun2socks).running = true → (s.threads i).pc.stage .tun2socks ≠ .create →
      (s.threads i).pc.stage .tun2socks ≠ .unset → Busy (after s i a pc) := fun hr hnc hnu => by
    rcases h.flagged hr with ⟨n, hn⟩ | ⟨j, hj⟩
    · exact .inl (job_onPart _ hn)
    · have hji : j ≠ i := fun he => by
        subst he
        rcases hj with hj | hj
        · exact hnc hj
        · exact hnu hj
      have hne : (s.threads j).pc ≠ .ended := fun he => by
        rw [he] at hj
        rcases hj with hj | hj <;> cases hj
      exact .inr ⟨j, by rw [after_same hf hji hne]; exact hj⟩
  generalize hst : (s.threads i).pc.stage .tun2socks = st at hs hold
  generalize hst' : pc.stage .tun2socks = st' at hs
  generalize hx : a.onPart .tun2socks (s.parts .tun2socks) = x at hs hr
  cases hs with
  | flag => exact .inr ⟨i, .inl (by rw [hself]; exact hst')⟩
  | create b =>
    refine .inl ⟨(s.parts .tun2socks).created, ?_⟩
    rw [after_parts, hx]
    simp [PartState.create]
  | createFails => exact .inr ⟨i, .inr (by rw [hself]; exact hst')⟩
  | unset => cases hr
  | clear => cases hr
  | stopServer => cases hr
  | undoClear => cases hr
  | announce =>
    have := server_stage_of_ne (p := .tun2socks) (by simp) (s.threads i).pc
    rw [hst] at this
    cases this
  | close | undoClose => exact hold (by rwa [PartState.close_running] at hr) (by simp) (by simp)
  | _ => exact hold hr (by simp) (by simp)

/-! ### The course of a session -/

theorem site_of_kind {site : Site} (h : site.kind = .session) : site = .session := by
  cases site <;> first | rfl | cases h

/-- The session does not return from its `finally` block, and its first start is not forgotten. -/
theorem code_course (hb : env.isNativeTun2socksBuilt = true) (hfit : pc.fits = true) (hk : pc.kind = .session)
    (h : code env s i pc o = some (a, pc')) (hin : pc'.inSession = true) :
    pc.inSession = true ∧ ∀ b, pc.first = some b → pc'.first = some b := by
  revert h
  cases pc with
  | ended | onStart | asn | monitor => cases hk
  | stopVpn c =>
    change StopVpn.code s i c o = _ → _
    fun_cases StopVpn.code s i c o <;> intro h <;> cases h <;> cases hin
  | runVpn c =>
    change RunVpn.code env s i c o = _ → _
    fun_cases RunVpn.code env s i c o <;> intro h <;> cases h <;> cases hin
    all_goals refine ⟨rfl, fun b hf => ?_⟩
    all_goals first | exact hf | cases hf
    all_goals simp_all [Pc.first]
  | restart site c =>
    cases site_of_kind hk
    cases hfit
  | start site b c =>
    cases site_of_kind hk
    exact fun _ => ⟨rfl, fun b hf => by cases hf⟩
  | undoCiadpi site c =>
    cases site_of_kind hk
    exact fun _ => ⟨rfl, fun b hf => by cases hf⟩
  | undoProtect site b c =>
    cases site_of_kind hk
    exact fun _ => ⟨rfl, fun b hf => by cases hf⟩
  | _ =>
    cases site_of_kind hk
    cases hfit

/-- The first start has succeeded when tun2socks was found running, or was started. -/
theorem code_first (hk : pc.kind = .session) (h : code env s i pc o = some (a, pc')) (hn : pc.first = none)
    (ht : pc'.first = some true) :
    pc.pastLibs = true ∧ ((s.parts .tun2socks).running = true ∧ pc.stage .tun2socks = .out ∧ a = .skip ∨
      ∃ b, a = .create .tun2socks b) := by
  revert h
  cases pc with
  | ended | onStart | asn | monitor => cases hk
  | stopVpn c =>
    change StopVpn.code s i c o = _ → _
    fun_cases StopVpn.code s i c o <;> intro h <;> cases h <;> cases ht
  | runVpn c =>
    change RunVpn.code env s i c o = _ → _
    fun_cases RunVpn.code env s i c o <;> intro h <;> cases h <;> cases ht <;> cases hn
  | restart site c =>
    cases site_of_kind hk
    change Restart.code s i _ c o = _ → _
    fun_cases Restart.code s i _ c o <;> intro h <;> cases h <;> cases ht
  | start site b c =>
    cases site_of_kind hk
    change Start.code env s _ b c o = _ → _
    fun_cases Start.code env s _ b c o <;> intro h <;> cases h <;> cases ht
    · exact ⟨rfl, .inl ⟨‹_›, rfl, rfl⟩⟩
    · exact ⟨rfl, .inr ⟨_, rfl⟩⟩
  | stopLibs site =>
    cases site_of_kind hk
    change stopLibs env _ o = _ → _
    fun_cases stopLibs env _ o <;> intro h <;> cases h <;> cases ht
  | stopTun2socks site c =>
    cases site_of_kind hk
    change Stop.code s _ _ _ c o = _ → _
    fun_cases Stop.code s .tun2socks (.stopTun2socks .session)
      (.stopCiadpi .session .test) c o <;> intro h <;>
      cases h <;> cases ht
  | stopCiadpi site c =>
    cases site_of_kind hk
    change Stop.code s _ _ _ c o = _ → _
    fun_cases Stop.code s .ciadpi (.stopCiadpi .session) (.stopProtect .session .clear) c o <;> intro h <;>
      cases h <;> cases ht
  | stopProtect site c =>
    cases site_of_kind hk
    change StopServer.code _ _ c o = _ → _
    fun_cases StopServer.code (.stopProtect .session) Site.session.stopped c o <;> intro h <;> cases
      h <;> cases ht
  | undoCiadpi site c =>
    cases site_of_kind hk
    change Stop.code s _ _ _ c o = _ → _
    fun_cases Stop.code s .ciadpi (.undoCiadpi .session) (Site.session.started false) c o <;> intro h <;>
      cases h <;> cases ht
  | undoProtect site b c =>
    cases site_of_kind hk
    change StopServer.code _ _ c o = _ → _
    fun_cases StopServer.code (.undoProtect .session b)
      (.start .session b (.ciadpiTest false)) c o <;> intro h <;>
      cases h <;> cases ht

/-- What the session does to the monitor and to pending interrupts. -/
theorem code_monitor (hfit : pc.fits = true) (hk : pc.kind = .session) (h : code env s i pc o = some (a, pc'))
    (hin : pc'.inSession = true) :
    (pc'.monitored = false → pc.monitored = false ∧ ∀ f, (a.onFields f).monitorThread = f.monitorThread) ∧
    (a.onInterrupted s i = s.interrupted ∨
      a = .interrupt (s.view i).monitorThread ∧ pc.monitored = false) := by
  by_cases hpc : pc.inEngine = true
  · have ha := (code_inEngine hpc h).1
    refine ⟨fun _ => ⟨?_, fun f => ?_⟩, .inl ?_⟩
    · cases pc <;> first | rfl | cases hpc
    · rw [(Act.inEngine_frame (s := s) (i := i) ha).1]
    · cases a <;> first | rfl | cases ha
  revert h
  cases pc with
  | ended | onStart | asn | monitor => cases hk
  | stopVpn c =>
    change StopVpn.code s i c o = _ → _
    fun_cases StopVpn.code s i c o <;> intro h <;> cases h <;> cases hin
  | runVpn c =>
    change RunVpn.code env s i c o = _ → _
    fun_cases RunVpn.code env s i c o <;> intro h <;> cases h <;> cases hin
    all_goals
      first
      | exact ⟨fun _ => ⟨rfl, fun _ => rfl⟩, .inl rfl⟩
      | exact ⟨fun _ => ⟨rfl, fun _ => rfl⟩, .inr ⟨rfl, rfl⟩⟩
      | exact ⟨fun hm => (by cases hm), .inl rfl⟩
  | restart site c =>
    cases site_of_kind hk
    cases hfit
  | _ => exact absurd rfl hpc

/-- Before its `finally` block the session closes no interface. -/
theorem code_open {t : ℕ} (hfit : pc.fits = true) (hk : pc.kind = .session)
    (h : code env s i pc o = some (a, pc'))
    (hin : pc'.inSession = true) (ht : (s.tuns t).isOpen = true) : (a.onTuns s i t).isOpen = true := by
  by_cases hpc : pc.inEngine = true
  · rw [(Act.inEngine_frame (code_inEngine hpc h).1).2.1]
    exact ht
  revert h
  cases pc with
  | ended | onStart | asn | monitor => cases hk
  | stopVpn c =>
    change StopVpn.code s i c o = _ → _
    fun_cases StopVpn.code s i c o <;> intro h <;> cases h <;> cases hin
  | runVpn c =>
    change RunVpn.code env s i c o = _ → _
    fun_cases RunVpn.code env s i c o <;> intro h <;> cases h <;> first | exact ht | skip
    by_cases hte : t = s.established
    · simp [Act.onTuns, hte]
    · rw [Act.onTuns, Function.update_of_ne hte]
      exact ht
  | restart site c =>
    cases site_of_kind hk
    cases hfit
  | _ => exact absurd rfl hpc

/-- The session gets its interface from `establish()` and keeps it. -/
theorem code_hasTun (hfit : pc.fits = true) (hk : pc.kind = .session) (h : code env s i pc o = some (a, pc'))
    (hin : pc'.inSession = true) :
    (∀ t, pc' = .runVpn (.store (some t)) → a = .establish ∧ t = s.established) ∧
    (pc' = .runVpn .test → ∃ t, pc = .runVpn (.store t) ∧ a = .setTun t) ∧
    (pc'.hasTun = true → (∀ f, (a.onFields f).vpnInterface = f.vpnInterface) ∧ (pc.hasTun = true ∨
      pc = .runVpn .test ∧ (s.view i).vpnInterface.isSome = true)) := by
  by_cases hpc : pc.inEngine = true
  · obtain ⟨ha, hpc'⟩ := code_inEngine hpc h
    refine ⟨fun t he => ?_, fun he => ?_, fun _ => ⟨fun f => ?_, .inl ?_⟩⟩
    · subst he
      rcases hpc' with he | ⟨site, b, he | he⟩
      · cases he
      · cases site <;> cases he
      · cases site <;> cases he
    · subst he
      rcases hpc' with he | ⟨site, b, he | he⟩
      · cases he
      · cases site <;> cases he
      · cases site <;> cases he
    · rw [(Act.inEngine_frame (s := s) (i := i) ha).1]
    · cases pc with
      | start site | undoCiadpi site | undoProtect site =>
        cases site_of_kind hk
        rfl
      | stopLibs site | stopTun2socks site | stopCiadpi site | stopProtect site =>
        cases site_of_kind hk
        cases hfit
      | _ => cases hpc
  revert h
  cases pc with
  | ended | onStart | asn | monitor => cases hk
  | stopVpn c =>
    change StopVpn.code s i c o = _ → _
    fun_cases StopVpn.code s i c o <;> intro h <;> cases h <;> cases hin
  | runVpn c =>
    change RunVpn.code env s i c o = _ → _
    fun_cases RunVpn.code env s i c o <;> intro h <;> cases h <;> cases hin
    all_goals simp_all [Pc.hasTun, Act.onFields]
  | restart site c =>
    cases site_of_kind hk
    cases hfit
  | _ => exact absurd rfl hpc

/-! ### The course of a restart -/

theorem Site.ahead_stopped {site : Site} (h : site.restarts = true) : site.stopped.ahead = true := by
  cases site <;> first | rfl | cases h

/-- A restart that meets no failure goes on until tun2socks is found running, or is started. -/
theorem code_ahead (ha : pc.ahead = true) (h : code env s i pc o = some (a, pc'))
    (hlibs : env.nativeLibsLoaded = true) (htun : openTun s i ≠ none) (hint : s.interrupted i = false)
    (hok : pc.fallible = true → o = .ok) :
    pc'.ahead = true ∨ (s.parts .tun2socks).running = true ∧ pc.stage .tun2socks = .out ∧ a = .skip ∨
      ∃ b, a = .create .tun2socks b := by
  revert h
  cases pc with
  | ended | onStart | stopVpn | runVpn | asn | monitor | undoCiadpi => cases ha
  | restart site c =>
    change Restart.code s i site c o = _ → _
    fun_cases Restart.code s i site c o <;> intro h <;> cases h <;> first | exact .inl ha | skip
    · exact absurd ‹_› htun
    · rw [hint] at *
      contradiction
    · exact .inl (by simpa [Pc.ahead] using ha)
  | start site b c =>
    have hsite : site.restarts = true := by
      simp only [Pc.ahead, Bool.and_eq_true] at ha
      exact ha.1
    change Start.code env s site b c o = _ → _
    fun_cases Start.code env s site b c o <;> intro h <;> cases h <;>
      first
      | exact .inl ((Bool.and_true _).trans hsite)
      | exact .inl hsite
      | exact absurd hlibs ‹_›
      | cases hok rfl
      | skip
    · simp [Pc.ahead] at ha
    · exact .inr (.inl ⟨‹_›, rfl, rfl⟩)
    · exact .inr (.inr ⟨_, rfl⟩)
    · simp [Pc.ahead] at ha
  | stopLibs site =>
    change stopLibs env site o = _ → _
    fun_cases stopLibs env site o <;> intro h <;> cases h
    · exact .inl ha
    · exact absurd hlibs ‹_›
  | stopTun2socks site c =>
    change Stop.code s _ _ _ c o = _ → _
    fun_cases Stop.code s .tun2socks (.stopTun2socks site) (.stopCiadpi site .test) c o <;> intro h <;>
      cases h <;> exact .inl ha
  | stopCiadpi site c =>
    change Stop.code s _ _ _ c o = _ → _
    fun_cases Stop.code s .ciadpi (.stopCiadpi site) (.stopProtect site .clear) c o <;> intro h <;>
      cases h <;> exact .inl ha
  | stopProtect site c =>
    change StopServer.code _ _ c o = _ → _
    fun_cases StopServer.code (.stopProtect site) site.stopped c o <;> intro h <;> cases h <;>
      first | exact .inl ha | exact .inl (Site.ahead_stopped ha)
  | undoProtect site b c =>
    change StopServer.code _ _ c o = _ → _
    fun_cases StopServer.code (.undoProtect site b) (.start site b (.ciadpiTest false)) c o <;> intro h <;>
      cases h <;> first | exact .inl ha | exact .inl (by simpa [Pc.ahead] using ha)

theorem Site.failing_after (b : Bool) (site : Site) :
    (site.started b).failing = false ∧ site.resume.failing = false ∧
    site.stopped.failing = false := by
  cases site <;> exact ⟨rfl, rfl, rfl⟩

theorem code_failing (hf : pc.failing = false) (h : code env s i pc o = some (a, pc'))
    (hok : pc.restarting = true → pc.fallible = true → o = .ok) : pc'.failing = false := by
  revert h
  cases pc with
  | ended => intro h; cases h
  | onStart c =>
    change OnStart.code s i c o = _ → _
    fun_cases OnStart.code s i c o <;> intro h <;> cases h <;> rfl
  | stopVpn c =>
    change StopVpn.code s i c o = _ → _
    fun_cases StopVpn.code s i c o <;> intro h <;> cases h <;> rfl
  | runVpn c =>
    change RunVpn.code env s i c o = _ → _
    fun_cases RunVpn.code env s i c o <;> intro h <;> cases h <;> rfl
  | asn c =>
    change AsnAutoDetect.code s i c o = _ → _
    fun_cases AsnAutoDetect.code s i c o <;> intro h <;> cases h <;> rfl
  | monitor w c =>
    change PresetMonitor.code s i w c o = _ → _
    fun_cases PresetMonitor.code s i w c o <;> intro h <;> cases h <;> rfl
  | restart site c =>
    change Restart.code s i site c o = _ → _
    fun_cases Restart.code s i site c o <;> intro h <;> cases h <;>
      first | rfl | exact (site.failing_after false).2.1 | exact Bool.and_false _
  | start site b c =>
    change Start.code env s site b c o = _ → _
    fun_cases Start.code env s site b c o <;> intro h <;> cases h <;>
      first | rfl | exact Bool.and_false _ | exact (site.failing_after _).1 | skip
    all_goals
      cases hsite : site.restarts with
      | false => simp [Pc.failing, hsite]
      | true => first | cases hok hsite rfl | (simp [Pc.failing, hsite] at hf)
  | stopLibs site =>
    change stopLibs env site o = _ → _
    fun_cases stopLibs env site o <;> intro h <;> cases h <;>
      first | rfl | exact (site.failing_after false).2.2
  | stopTun2socks site c =>
    change Stop.code s _ _ _ c o = _ → _
    fun_cases Stop.code s .tun2socks (.stopTun2socks site) (.stopCiadpi site .test) c o <;> intro h <;>
      cases h <;> rfl
  | stopCiadpi site c =>
    change Stop.code s _ _ _ c o = _ → _
    fun_cases Stop.code s .ciadpi (.stopCiadpi site) (.stopProtect site .clear) c o <;> intro h <;>
      cases h <;> rfl
  | stopProtect site c =>
    change StopServer.code _ _ c o = _ → _
    fun_cases StopServer.code (.stopProtect site) site.stopped c o <;> intro h <;> cases h <;>
      first | rfl | exact (site.failing_after false).2.2
  | undoCiadpi site c =>
    change Stop.code s _ _ _ c o = _ → _
    fun_cases Stop.code s .ciadpi (.undoCiadpi site) (site.started false) c o <;> intro h <;> cases h <;>
      first | exact hf | exact (site.failing_after false).1
  | undoProtect site b c =>
    change StopServer.code _ _ c o = _ → _
    fun_cases StopServer.code (.undoProtect site b) (.start site b (.ciadpiTest false)) c o <;> intro h <;>
      cases h <;> first | rfl | exact Bool.and_false _

/-! ### Threads of a run with one session -/

theorem inSession_of_first {b : Bool} (h : pc.first = some b) : pc.inSession = true := by
  cases pc <;> first | rfl | cases h

theorem hasTun_of_first {b : Bool} (h : pc.first = some b) : pc.hasTun = true := by
  cases pc with
  | runVpn c => cases c <;> first | rfl | cases h
  | _ => cases h

theorem ahead_of_first {b : Bool} (h : pc.first = some b) : pc.ahead = false ∧ pc.failing = false ∧
    pc.stage .tun2socks = .out := by
  cases pc <;> first | exact ⟨rfl, rfl, rfl⟩ | cases h

theorem kind_of_restarts {site : Site} (h : site.restarts = true) : site.kind = .helper := by
  cases site <;> first | rfl | cases h

theorem kind_of_failing (h : pc.failing = true) : pc.kind = .helper := by
  cases pc with
  | start site b c =>
    simp only [Pc.failing, Bool.and_eq_true] at h
    exact kind_of_restarts h.1
  | undoCiadpi site c => exact kind_of_restarts h
  | _ => cases h

theorem restarting_of_ahead (h : pc.ahead = true) : pc.restarting = true := by
  cases pc with
  | start site b c =>
    simp only [Pc.ahead, Bool.and_eq_true] at h
    exact h.1
  | restart | stopLibs | stopTun2socks | stopCiadpi | stopProtect | undoProtect => exact h
  | _ => cases h

theorem starting_cases (hfit : pc.fits = true)
    (h : pc.stage .tun2socks = .create ∨ pc.stage .tun2socks = .unset) :
    pc.kind = .session ∨ pc.kind = .helper ∧ (pc.ahead = true ∨ pc.failing = true) := by
  cases pc with
  | start site b c =>
    cases site with
    | session => exact .inl rfl
    | async => cases hfit
    | asn | monitor => exact .inr ⟨rfl, by cases c <;> first | exact .inl rfl | exact .inr rfl⟩
  | stopTun2socks site c => cases c <;> rcases h with h | h <;> cases h
  | _ => rcases h with h | h <;> cases h

theorem stopping_cases (hfit : pc.fits = true)
    (h : pc.stage .tun2socks = .join ∨ ∃ t, pc.stage .tun2socks = .joining t) :
    pc.kind = .async ∨ pc.ahead = true := by
  cases pc with
  | start site b c => cases c <;> rcases h with h | ⟨t, h⟩ <;> cases h
  | stopTun2socks site c =>
    cases site with
    | session => cases hfit
    | async => exact .inl rfl
    | asn | monitor => exact .inr rfl
  | _ => rcases h with h | ⟨t, h⟩ <;> cases h

/-- Before the `spawn` of `startVpn` a start command only prepares. -/
theorem code_prepares {c d : OnStart} (h : code env s i (.onStart d) o = some (a, .onStart c))
    (hc : ∀ t, c ≠ .keep t) : (∀ t, d ≠ .keep t) ∧ a.spawns = none := by
  change OnStart.code s i d o = _ at h
  revert h
  fun_cases OnStart.code s i d o <;> intro h <;> cases h <;>
    first | exact ⟨fun _ he => (by cases he), rfl⟩ | exact absurd rfl (hc _)

/-- Until the session is started only the main thread runs. -/
theorem ReadInv.main_of_spawned (h : ReadInv env s) (hf : Fresh s) (h1 : s.spawned = 1)
    (hi : (s.threads i).pc ≠ .ended) : i = 0 ∧ ∃ c, (s.threads i).pc = .onStart c := by
  have hlt := hf.lt hi
  have hk := h.kinds i
  refine ⟨by omega, main_of_kind ?_⟩
  cases hkind : (s.threads i).pc.kind with
  | main => rfl
  | idle =>
    refine absurd ?_ hi
    revert hkind
    cases (s.threads i).pc with
    | ended => intro; rfl
    | restart site | start site | stopLibs site | stopTun2socks site | stopCiadpi site | stopProtect site
    | undoCiadpi site | undoProtect site => cases site <;> intro hk <;> cases hk
    | _ => intro hk; cases hk
  | session =>
    rw [hkind] at hk
    exact absurd hk.2 (by omega)
  | helper | async =>
    rw [hkind] at hk
    exact absurd hk.1 (by omega)

theorem ReadInv.objects_after (h : ReadInv env s) (hf : Fresh s)
    (hc : code env s i (s.threads i).pc o = some (a, pc)) :
    (after s i a pc).object = 0 ∧ ∀ j, ((after s i a pc).threads j).object = 0 := by
  refine ⟨h.objects.1, fun j => ?_⟩
  rcases after_cases hf (pc_ne_ended hc) a pc j with ⟨-, he⟩ | ⟨q, -, -, he⟩ | ⟨-, he⟩
  · rw [he]
    exact h.objects.2 i
  · rw [he]
    exact h.objects.2 i
  · rw [he]
    exact h.objects.2 j

theorem ReadInv.begun_after (h : ReadInv env s) (hf : Fresh s)
    (hc : code env s i (s.threads i).pc o = some (a, pc)) :
    ((after s i a pc).last = none → (after s i a pc).spawned = 1 ∧ ((after s i a pc).threads 0).pc = .ended) ∧
    ∀ c, ((after s i a pc).threads 0).pc = .onStart c → (∀ t, c ≠ .keep t) →
      (after s i a pc).spawned = 1 := by
  have hne := pc_ne_ended hc
  refine ⟨fun hl => ?_, fun c hm hk => ?_⟩
  · obtain ⟨h1, h0⟩ := h.begun.1 hl
    obtain ⟨rfl, -⟩ := h.main_of_spawned hf h1 hne
    exact absurd h0 hne
  · rcases after_cases hf hne a pc 0 with ⟨rfl, he⟩ | ⟨q, -, h0, -⟩ | ⟨h0, he⟩
    · rw [he] at hm
      change pc = _ at hm
      subst hm
      rcases code_keeps (h.fits 0) hc with hk' | hk'
      · cases hk'
      · obtain ⟨d, hd⟩ := main_of_kind hk'.1.symm
        rw [hd] at hc
        obtain ⟨hdk, ha⟩ := code_prepares hc hk
        rw [← h.begun.2 d hd hdk]
        simp [after, State.setPc, act, ha]
    · have := hf.1
      omega
    · rw [he] at hm
      exact absurd (h.main_of_spawned hf (h.begun.2 c hm hk) hne).1.symm h0

theorem ReadInv.blank_after (h : ReadInv env s) (hf : Fresh s)
    (hc : code env s i (s.threads i).pc o = some (a, pc)) (h1 : (after s i a pc).spawned = 1) :
    Blank (after s i a pc) := by
  have hle := le_spawned s i a pc
  have hs : s.spawned = 1 := by
    have := hf.1
    omega
  obtain ⟨-, c, hpc⟩ := h.main_of_spawned hf hs (pc_ne_ended hc)
  have hb := h.blank hs
  have ha : a.spawns = none := by
    cases hsp : a.spawns with
    | none => rfl
    | some q =>
      simp only [after, State.setPc, act, hsp, Option.isSome_some, if_true] at h1
      omega
  rw [hpc] at hc
  have hp := code_isPrivate (by simp [Pc.kind]) (fun he => ?_) hc
  · obtain ⟨hfields, htuns, -, hest, hint⟩ := isPrivate_frame (s := s) (i := i) hp
    refine ⟨?_, ?_, ?_, ?_, fun j => ?_⟩
    · simpa [after, State.setPc, act, hest] using hb.tuns
    · rw [after_parts, (OnStart.code_part hc).1]
      exact hb.part
    · rw [h.fields_after, (hfields _).2]
      exact hb.monitor
    · rw [h.fields_after, (hfields _).1]
      exact hb.tun
    · by_contra hj
      have := hint j (eq_true_of_ne_false hj)
      rw [hb.calm j] at this
      cases this
  · cases he
    cases o <;> cases hc
    cases ha

/-- The session thread after a statement that does not start it. -/
theorem after_session (hf : Fresh s) (hlt : s.session < s.spawned)
    (hc : code env s i (s.threads i).pc o = some (a, pc)) (hns : (s.threads i).pc ≠ .onStart .spawn) :
    (after s i a pc).session = s.session ∧
    (i = s.session ∧ ((after s i a pc).threads s.session).pc = pc ∨
      i ≠ s.session ∧ (after s i a pc).threads s.session = s.threads s.session) := by
  refine ⟨(session_after hc pc).resolve_right hns, ?_⟩
  rcases after_cases hf (pc_ne_ended hc) a pc s.session with ⟨h, he⟩ | ⟨q, -, h, -⟩ | ⟨h, he⟩
  · exact .inl ⟨h.symm, by rw [he]⟩
  · omega
  · exact .inr ⟨h.symm, he⟩

theorem ReadInv.spawn_after (h : ReadInv env s) (hf : Fresh s)
    (hc : code env s i (s.threads i).pc o = some (a, pc)) (hpc : (s.threads i).pc = .onStart .spawn) :
    (after s i a pc).session = 1 ∧ (after s i a pc).spawned = 2 ∧ a = .spawn (.runVpn .probe) ∧
    ∀ j, ((after s i a pc).threads j).pc =
      if j = 0 then .onStart (.keep 1) else if j = 1 then .runVpn .probe else .ended := by
  have h1 := h.spawned_eq hpc
  obtain ⟨rfl, -⟩ := h.main_of_spawned hf h1 (pc_ne_ended hc)
  have hne := pc_ne_ended hc
  rw [hpc] at hc
  cases o <;> cases hc
  refine ⟨by simp [after, State.setPc, act, Act.spawns, Pc.isSession, h1],
    by simp [after, State.setPc, act, Act.spawns, h1], rfl, fun j => ?_⟩
  by_cases hj0 : j = 0
  · subst hj0
    rw [after_self (by omega), h1]
    rfl
  · rw [if_neg hj0]
    by_cases hj1 : j = 1
    · subst hj1
      have he := @after_spawned s 0 (.spawn (.runVpn .probe)) (.onStart (.keep s.spawned)) _ (by omega) rfl
      rw [h1] at he
      rw [h1, he]
      rfl
    · rw [after_of_ne hj0 (by omega), if_neg hj1]
      exact hf.2 j (by omega)

/-- What the session has got from its first start is not forgotten. -/
theorem ReadInv.known_after (h : ReadInv env s) (hf : Fresh s) (hlt : s.session < s.spawned)
    (hb : env.isNativeTun2socksBuilt = true) (hc : code env s i (s.threads i).pc o = some (a, pc))
    (hns : (s.threads i).pc ≠ .onStart .spawn)
    (hin : ((after s i a pc).threads s.session).pc.inSession = true) :
    (s.threads s.session).pc.inSession = true ∧ ∀ b, (s.threads s.session).pc.first = some b →
      ((after s i a pc).threads s.session).pc.first = some b := by
  rcases (after_session hf hlt hc hns).2 with ⟨rfl, he⟩ | ⟨-, he⟩
  · rw [he] at hin ⊢
    have hk : (s.threads s.session).pc.kind = .session := by
      rcases code_keeps (h.fits s.session) hc with hk | hk
      · rw [hk] at hin
        cases hin
      · rw [← hk.1]
        exact kind_of_inSession hk.2 hin
    exact code_course hb (h.fits _) hk hc hin
  · rw [he] at hin ⊢
    exact ⟨hin, fun _ => id⟩

theorem ReadInv.kinds_after (h : ReadInv env s) (hf : Fresh s) (hlt : s.session < s.spawned)
    (hb : env.isNativeTun2socksBuilt = true) (hc : code env s i (s.threads i).pc o = some (a, pc)) (j : ℕ) :
    KindOk (after s i a pc) j ((after s i a pc).threads j).pc.kind := by
  by_cases hns : (s.threads i).pc = .onStart .spawn
  · obtain ⟨hs, hsp, -, he⟩ := h.spawn_after hf hc hns
    rw [he j]
    by_cases hj0 : j = 0
    · rw [if_pos hj0]
      exact hj0
    · rw [if_neg hj0]
      by_cases hj1 : j = 1
      · rw [if_pos hj1]
        exact ⟨hj1.trans hs.symm, by omega⟩
      · rw [if_neg hj1]
        trivial
  have hknown := h.known_after hf hlt hb hc hns
  obtain ⟨hs, hsession⟩ := after_session hf hlt hc hns
  have hle := le_spawned s i a pc
  -- a kind that was allowed still is
  have hold : ∀ k, KindOk s j k → KindOk (after s i a pc) j k := fun k hk => by
    cases k with
    | idle => trivial
    | main => exact hk
    | session => exact ⟨hk.1.trans hs.symm, Nat.lt_of_lt_of_le hk.2 hle⟩
    | helper =>
      refine ⟨Nat.lt_of_lt_of_le hk.1 hle, fun hin => ?_⟩
      rw [hs] at hin ⊢
      obtain ⟨hin', hfirst⟩ := hknown hin
      obtain ⟨b, hb⟩ := Option.ne_none_iff_exists'.mp (hk.2 hin')
      rw [hfirst b hb]
      simp
    | async =>
      refine ⟨Nat.lt_of_lt_of_le hk.1 hle, ?_⟩
      rw [hs]
      by_contra hin
      have := (hknown (eq_true_of_ne_false hin)).1
      rw [hk.2] at this
      cases this
  rcases after_cases hf (pc_ne_ended hc) a pc j with ⟨rfl, he⟩ | ⟨q, ha, rfl, he⟩ | ⟨-, he⟩
  · rw [he]
    rcases code_keeps (h.fits j) hc with hk | hk
    · simp only [hk]
      trivial
    · simp only [hk.1]
      exact hold _ (h.kinds j)
  · rw [he]
    have hi := h.kinds i
    rcases code_spawns hc ha with ⟨hpc, -, -⟩ | ⟨hpc, rfl, rfl⟩ | ⟨b, hpc, rfl, rfl⟩ | ⟨b, hpc, rfl, rfl⟩
    · exact absurd hpc hns
    all_goals
      rw [hpc] at hi
      obtain ⟨rfl, h1⟩ : i = s.session ∧ 1 < s.spawned := hi
      refine ⟨Nat.lt_of_lt_of_le h1 hle, ?_⟩
      rw [hs]
      rcases hsession with ⟨-, hs'⟩ | ⟨hne, -⟩
      · rw [hs']
        first | rfl | exact fun _ hn => (by cases hn)
      · exact absurd rfl hne
  · rw [he]
    exact hold _ (h.kinds j)

/-! ### The reader of a session -/

/-- When tun2socks is found running it runs, or a restart is about to start it. -/
theorem ReadInv.found (h : ReadInv env s) (hgo : Going env s) {b : Bool}
    (hfirst : (s.threads s.session).pc.first = some b) (hb : b = true)
    (hr : (s.parts .tun2socks).running = true) :
    (∃ n, (s.parts .tun2socks).job n ≠ none) ∨ ∃ j, (s.threads j).pc.ahead = true ∧
      (s.threads j).pc.stage .tun2socks ≠ .out := by
  subst hb
  rcases h.flagged hr with hn | ⟨j, hj⟩
  · exact .inl hn
  refine .inr ⟨j, ?_, fun he => ?_⟩
  · rcases starting_cases (h.fits j) hj with hk | ⟨-, ha | hfail⟩
    · have hkind := h.kinds j
      rw [hk] at hkind
      obtain ⟨rfl, -⟩ := hkind
      rw [(ahead_of_first hfirst).2.2] at hj
      rcases hj with hj | hj <;> cases hj
    · exact ha
    · rw [hgo.firm hfirst j] at hfail
      cases hfail
  · rw [he] at hj
    rcases hj with hj | hj <;> cases hj

/-- A restart that was ahead of its start of tun2socks still is, or tun2socks runs. -/
theorem ReadInv.native_other (h : ReadInv env s) (hf : Fresh s)
    (hc : code env s i (s.threads i).pc o = some (a, pc)) (hg : Consistent s (.run i o))
    (hin : (s.threads s.session).pc.inSession = true) (hfirst : (s.threads s.session).pc.first = some true) :
    (∃ n, ((after s i a pc).parts .tun2socks).job n ≠ none) ∨
      ∃ j, ((after s i a pc).threads j).pc.ahead = true := by
  have hgo := h.going hin
  have hself : ((after s i a pc).threads i).pc = pc := by
    rw [after_self (Nat.ne_of_lt (hf.lt (pc_ne_ended hc)))]
  have hkeep : ∀ j, j ≠ i → (s.threads j).pc.ahead = true →
      ((after s i a pc).threads j).pc.ahead = true := fun j hji ha => by
    rw [after_same hf hji (fun he => by rw [he] at ha; cases ha)]
    exact ha
  rcases hgo.native hfirst with ⟨n, hn⟩ | ⟨j, hj⟩
  · exact .inl (job_onPart _ hn)
  by_cases hji : j = i
  · subst hji
    obtain ⟨t, ht, hopen⟩ := hgo.tun (hasTun_of_first hfirst)
    have htun : openTun s j ≠ none := by
      rw [openTun, h.view_eq, ht]
      simp [hopen]
    rcases code_ahead hj hc (hgo.libs hfirst) htun (hgo.calm j)
      (hg.2 hfirst (restarting_of_ahead hj)) with ha | ⟨hr, hst, -⟩ | ⟨b, rfl⟩
    · exact .inr ⟨j, by rw [hself]; exact ha⟩
    · rcases h.found hgo hfirst rfl hr with ⟨n, hn⟩ | ⟨k, ha, hkst⟩
      · exact .inl (job_onPart _ hn)
      · exact .inr ⟨k, hkeep k (fun he => hkst (he ▸ hst)) ha⟩
    · exact .inl ⟨(s.parts .tun2socks).created, by simp [Act.onPart, PartState.create]⟩
  · exact .inr ⟨j, hkeep j hji hj⟩

/-- A restart does not start tun2socks beside the reader of the session. -/
theorem ReadInv.silent_other (h : ReadInv env s) (hc : code env s i (s.threads i).pc o = some (a, pc))
    (hg : Consistent s (.run i o)) (hk : (s.threads i).pc.kind ≠ .session)
    (hin : (s.threads s.session).pc.inSession = true) (hfirst : (s.threads s.session).pc.first ≠ some true)
    (n : ℕ) : ((after s i a pc).parts .tun2socks).job n = none := by
  by_contra hn
  obtain ⟨b, hb⟩ := Option.ne_none_iff_exists'.mp hn
  rcases job_tun2socks hb with hold | rfl
  · rw [(h.going hin).silent hfirst n] at hold
    cases hold
  obtain ⟨site, c, hpc, -, -, rfl⟩ := code_create hc
  have hkind := h.kinds i
  rw [hpc] at hkind hk
  cases site with
  | session => exact hk rfl
  | async =>
    have := h.fits i
    rw [hpc] at this
    cases this
  | asn | monitor =>
    obtain ⟨b', hb'⟩ := Option.ne_none_iff_exists'.mp (hkind.2 hin)
    cases b' with
    | true => exact hfirst hb'
    | false => exact hg.1 hb' _ c hpc rfl

/-- A step of the main thread or of a helper. -/
theorem ReadInv.going_other (h : ReadInv env s) (hf : Fresh s) (hlt : s.session < s.spawned)
    (hc : code env s i (s.threads i).pc o = some (a, pc)) (hns : (s.threads i).pc ≠ .onStart .spawn)
    (hg : Consistent s (.run i o)) (hne : i ≠ s.session) (hk : (s.threads i).pc.kind ≠ .session)
    (hin : (s.threads s.session).pc.inSession = true) : Going env (after s i a pc) := by
  have hgo := h.going hin
  obtain ⟨hs, hsession⟩ := after_session hf hlt hc hns
  have hsame : (after s i a pc).threads s.session = s.threads s.session := by
    rcases hsession with ⟨he, -⟩ | ⟨-, he⟩
    · exact absurd he hne
    · exact he
  obtain ⟨hfields, htuns, hsp, -, hint⟩ := isPrivate_frame (s := s) (i := i) (code_isPrivate hk hns hc)
  constructor
  case calm =>
    intro j
    by_contra hj
    have := hint j (eq_true_of_ne_false hj)
    rw [hgo.calm j] at this
    cases this
  case monitor =>
    rw [hs, hsame, h.fields_after, (hfields _).2]
    exact hgo.monitor
  case stored =>
    rw [hs, hsame, after_tuns, htuns]
    exact hgo.stored
  case test =>
    rw [hs, hsame, after_tuns, htuns, h.fields_after, (hfields _).1]
    exact hgo.test
  case tun =>
    rw [hs, hsame, after_tuns, htuns, h.fields_after, (hfields _).1]
    exact hgo.tun
  case libs =>
    rw [hs, hsame]
    exact hgo.libs
  case native =>
    rw [hs, hsame]
    exact h.native_other hf hc hg hin
  case firm =>
    rw [hs, hsame]
    intro hfirst j
    rcases after_cases hf (pc_ne_ended hc) a pc j with ⟨rfl, he⟩ | ⟨q, ha, -, -⟩ | ⟨-, he⟩
    · rw [he]
      exact code_failing (hgo.firm hfirst j) hc (hg.2 hfirst)
    · rw [hsp] at ha
      cases ha
    · rw [he]
      exact hgo.firm hfirst j
  case silent =>
    rw [hs, hsame]
    exact h.silent_other hc hg hk hin

/-- A step of the session after which its first start has returned: it had returned, or it returns now. -/
theorem first_cases (hcourse : ∀ b, pc.first = some b → pc'.first = some b) (ht : pc'.first = some true) :
    pc.first = some true ∨ pc.first = none := by
  cases hfirst : pc.first with
  | none => exact .inr rfl
  | some b =>
    rw [hcourse b hfirst] at ht
    exact .inl ht

theorem ReadInv.native_session (h : ReadInv env s) (hf : Fresh s)
    (hc : code env s s.session (s.threads s.session).pc o = some (a, pc))
    (hk : (s.threads s.session).pc.kind = .session) (hin : (s.threads s.session).pc.inSession = true)
    (ht : pc.first = some true)
    (hfirst : (s.threads s.session).pc.first = some true ∨ (s.threads s.session).pc.first = none) :
    (∃ n, ((after s s.session a pc).parts .tun2socks).job n ≠ none) ∨
      ∃ j, ((after s s.session a pc).threads j).pc.ahead = true := by
  rcases hfirst with hold | hnone
  · rcases (h.going hin).native hold with ⟨n, hn⟩ | ⟨j, hj⟩
    · exact .inl (job_onPart _ hn)
    · have hne : j ≠ s.session := by
        rintro rfl
        rw [(ahead_of_first hold).1] at hj
        cases hj
      refine .inr ⟨j, ?_⟩
      rw [after_same hf hne (fun he => by rw [he] at hj; cases hj)]
      exact hj
  rcases (code_first hk hc hnone ht).2 with ⟨hr, hst, rfl⟩ | ⟨b, rfl⟩
  · rcases h.flagged hr with ⟨n, hn⟩ | ⟨j, hj⟩
    · exact .inl ⟨n, hn⟩
    -- before its first start nobody but the session starts an engine
    have hkind := h.kinds j
    rcases starting_cases (h.fits j) hj with hkj | ⟨hkj, -⟩
    · rw [hkj] at hkind
      obtain ⟨rfl, -⟩ := hkind
      rw [hst] at hj
      rcases hj with hj | hj <;> cases hj
    · rw [hkj] at hkind
      exact absurd hnone (hkind.2 hin)
  · exact .inl ⟨(s.parts .tun2socks).created, by simp [Act.onPart, PartState.create]⟩

theorem ReadInv.firm_session (h : ReadInv env s) (hf : Fresh s)
    (hc : code env s s.session (s.threads s.session).pc o = some (a, pc))
    (hin : (s.threads s.session).pc.inSession = true) (ht : pc.first = some true)
    (hfirst : (s.threads s.session).pc.first = some true ∨ (s.threads s.session).pc.first = none) (j : ℕ) :
    ((after s s.session a pc).threads j).pc.failing = false := by
  rcases after_cases hf (pc_ne_ended hc) a pc j with ⟨rfl, he⟩ | ⟨q, ha, -, he⟩ | ⟨-, he⟩
  · rw [he]
    exact (ahead_of_first ht).2.1
  · rw [he]
    rcases code_spawns hc ha with ⟨-, rfl, -⟩ | ⟨-, rfl, -⟩ | ⟨b, -, rfl, -⟩ | ⟨b, -, rfl, -⟩ <;> rfl
  · rw [he]
    rcases hfirst with hold | hnone
    · exact (h.going hin).firm hold j
    · by_contra hfail
      have hkind := h.kinds j
      rw [kind_of_failing (eq_true_of_ne_false hfail)] at hkind
      exact hkind.2 hin hnone

/-- A step of the session. -/
theorem ReadInv.going_session (h : ReadInv env s) (hl : Loaded env s) (hf : Fresh s)
    (hlt : s.session < s.spawned)
    (hb : env.isNativeTun2socksBuilt = true)
    (hc : code env s s.session (s.threads s.session).pc o = some (a, pc))
    (hk : (s.threads s.session).pc.kind = .session) (hin : pc.inSession = true) :
    Going env (after s s.session a pc) := by
  have hfit := h.fits s.session
  obtain ⟨hin', hcourse⟩ := code_course hb hfit hk hc hin
  have hgo := h.going hin'
  have hns : (s.threads s.session).pc ≠ .onStart .spawn := fun he => by
    rw [he] at hk
    cases hk
  have hs := (after_session hf hlt hc hns).1
  have hself : ((after s s.session a pc).threads s.session).pc = pc := by
    rw [after_self (Nat.ne_of_lt hlt)]
  have hview := h.view_eq s.session
  obtain ⟨hmon, hint⟩ := code_monitor hfit hk hc hin
  obtain ⟨hstore, htest, htun⟩ := code_hasTun hfit hk hc hin
  have hopen : ∀ t, (s.tuns t).isOpen = true → (a.onTuns s s.session t).isOpen = true :=
    fun t => code_open hfit hk hc hin
  constructor
  case calm =>
    intro j
    rcases hint with he | ⟨rfl, hm⟩
    · change a.onInterrupted s s.session j = false
      rw [he]
      exact hgo.calm j
    · change Act.onInterrupted s s.session (.interrupt _) j = false
      rw [hview, hgo.monitor hm]
      exact hgo.calm j
  case monitor =>
    rw [hs, hself, h.fields_after]
    intro hm
    rw [(hmon hm).2]
    exact hgo.monitor (hmon hm).1
  case stored =>
    rw [hs, hself]
    intro t ht
    obtain ⟨rfl, rfl⟩ := hstore t ht
    simp [Act.onTuns]
  case test =>
    rw [hs, hself, h.fields_after]
    intro ht t hf
    obtain ⟨u, hpc, rfl⟩ := htest ht
    change u = some t at hf
    subst hf
    exact hgo.stored t hpc
  case tun =>
    rw [hs, hself, h.fields_after]
    intro ht
    obtain ⟨hfield, hold⟩ := htun ht
    rw [hfield]
    rcases hold with hold | ⟨hpc, hsome⟩
    · obtain ⟨t, hf, ho⟩ := hgo.tun hold
      exact ⟨t, hf, hopen t ho⟩
    · obtain ⟨t, hf⟩ := Option.isSome_iff_exists.mp hsome
      rw [hview] at hf
      exact ⟨t, hf, hopen t (hgo.test hpc t hf)⟩
  case libs =>
    rw [hs, hself]
    intro ht
    rcases first_cases hcourse ht with hold | hnone
    · exact hgo.libs hold
    · exact hl.past s.session (code_first hk hc hnone ht).1
  case native =>
    rw [hs, hself]
    exact fun ht => h.native_session hf hc hk hin' ht (first_cases hcourse ht)
  case firm =>
    rw [hs, hself]
    exact fun ht => h.firm_session hf hc hin' ht (first_cases hcourse ht)
  case silent =>
    rw [hs, hself]
    intro ht n
    by_contra hn
    obtain ⟨b, hb⟩ := Option.ne_none_iff_exists'.mp hn
    rcases job_tun2socks hb with hold | rfl
    · rw [hgo.silent (fun he => ht (hcourse true he)) n] at hold
      cases hold
    · obtain ⟨site, c, hpc, -, rfl, -⟩ := code_create hc
      rw [hpc] at hk
      cases site_of_kind hk
      exact ht rfl

theorem ReadInv.going_after (h : ReadInv env s) (hl : Loaded env s) (hf : Fresh s)
    (hlt : s.session < s.spawned)
    (hb : env.isNativeTun2socksBuilt = true) (hc : code env s i (s.threads i).pc o = some (a, pc))
    (hg : Consistent s (.run i o))
    (hin : ((after s i a pc).threads (after s i a pc).session).pc.inSession = true) :
    Going env (after s i a pc) := by
  by_cases hns : (s.threads i).pc = .onStart .spawn
  · -- the session begins with nothing
    have hblank := h.blank (h.spawned_eq hns)
    obtain ⟨hs, -, rfl, he⟩ := h.spawn_after hf hc hns
    have hpc : ((after s i (.spawn (.runVpn .probe)) pc).threads 1).pc = .runVpn .probe := he 1
    constructor <;> first | rw [hs, hpc] | skip
    · exact hblank.calm
    · rw [h.fields_after]
      exact fun _ => hblank.monitor
    · exact fun _ ht => (by cases ht)
    · exact fun ht => (by cases ht)
    · exact fun ht => (by cases ht)
    · exact fun ht => (by cases ht)
    · exact fun ht => (by cases ht)
    · exact fun ht => (by cases ht)
    · rw [after_parts, hblank.part]
      exact fun _ _ => rfl
  obtain ⟨hs, hsession⟩ := after_session hf hlt hc hns
  have hin' := (h.known_after hf hlt hb hc hns (by rwa [hs] at hin)).1
  rw [hs] at hin
  rcases hsession with ⟨rfl, he⟩ | ⟨hne, he⟩
  · rw [he] at hin
    exact h.going_session hl hf hlt hb hc (kind_of_inSession (h.fits _) hin') hin
  · refine h.going_other hf hlt hc hns hg hne (fun hk => ?_) hin'
    have := h.kinds i
    rw [hk] at this
    exact hne this.1

theorem ReadInv.after (h : ReadInv env s) (hl : Loaded env s) (hf : Fresh s) (hlt : s.session < s.spawned)
    (hb : env.isNativeTun2socksBuilt = true) (hc : code env s i (s.threads i).pc o = some (a, pc))
    (hg : Consistent s (.run i o)) : ReadInv env (after s i a pc) where
  objects := h.objects_after hf hc
  fits := fits_after h.fits hf hc
  kinds := h.kinds_after hf hlt hb hc
  begun := h.begun_after hf hc
  blank := h.blank_after hf hc
  args := h.args_after hf hc
  field := h.field_after hc
  jobs := h.jobs_after hc
  flagged := h.flagged_after hf hc
  going := h.going_after hl hf hlt hb hc hg

theorem ReadInv.deliver {c : Command} (h : ReadInv env s) (hf : Fresh s) (hlt : s.session < s.spawned)
    (hg : OneSession s (.deliver c)) :
    ReadInv env (delivered s c (if s.last = some .destroy then s.object + 1 else s.object)) := by
  obtain ⟨hlast, id, rfl⟩ := hg
  obtain ⟨h1, -⟩ := h.begun.1 hlast
  have hblank := h.blank h1
  rw [hlast, if_neg (by simp), h.objects.1]
  have hthreads : ∀ j, j = 0 ∧ (delivered s (.start id) 0).threads j =
      { pc := Command.pc (.start id), object := 0 } ∨
      j ≠ 0 ∧ (delivered s (.start id) 0).threads j = s.threads j ∧ (s.threads j).pc = .ended := fun j => by
    rcases delivered_threads s (.start id) 0 j with hj | ⟨hj, he⟩
    · exact .inl hj
    · exact .inr ⟨hj, he, hf.2 j (by omega)⟩
  constructor
  case objects =>
    refine ⟨rfl, fun j => ?_⟩
    rcases hthreads j with ⟨-, he⟩ | ⟨-, he, -⟩
    · rw [he]
    · rw [he]
      exact h.objects.2 j
  case fits =>
    intro j
    rcases hthreads j with ⟨-, he⟩ | ⟨-, he, hj⟩
    · rw [he]
      rfl
    · rw [he, hj]
      rfl
  case kinds =>
    intro j
    rcases hthreads j with ⟨hj, he⟩ | ⟨-, he, hj⟩
    · rw [he]
      exact hj
    · rw [he, hj]
      trivial
  case begun => exact ⟨fun hl => (by cases hl), fun _ _ _ => h1⟩
  case blank => exact fun _ => ⟨hblank.tuns, hblank.part, hblank.monitor, hblank.tun, hblank.calm⟩
  case args =>
    intro j t ht
    rcases hthreads j with ⟨-, he⟩ | ⟨-, he, hj⟩
    · rw [he] at ht
      cases ht
    · rw [he, hj] at ht
      cases ht
  case field => exact h.field
  case jobs => exact h.jobs
  case flagged =>
    intro hr
    change (s.parts .tun2socks).running = true at hr
    rw [hblank.part] at hr
    cases hr
  case going =>
    intro hin
    have h0 : s.session = 0 := by omega
    change ((delivered s (.start id) 0).threads s.session).pc.inSession = true at hin
    rcases hthreads s.session with ⟨-, he⟩ | ⟨hne, -⟩
    · rw [he] at hin
      cases hin
    · exact absurd h0 hne

theorem setPart_of_ne {p q : Part} {x : PartState} (h : p ≠ q) : (s.setPart q x).parts p = s.parts p := by
  simp only [State.setPart, Function.update_of_ne h]

theorem ReadInv.exit {p : Part} {t : ℕ} (h : ReadInv env s) (ht : (s.parts p).job t ≠ none)
    (hg : Consistent s (.exit p t)) : ReadInv env (s.setPart p ((s.parts p).exited t)) := by
  by_cases hp : Part.tun2socks = p
  · subst hp
    have hjob : ∀ n b, ((s.setPart .tun2socks ((s.parts .tun2socks).exited t)).parts .tun2socks).job
      n = some b →
        (s.parts .tun2socks).job n = some b := fun n b hn => by
      simp only [State.setPart, Function.update_self, PartState.exited] at hn
      by_cases hnt : n = t
      · rw [hnt, Function.update_self] at hn
        cases hn
      · rwa [Function.update_of_ne hnt] at hn
    constructor
    case objects => exact h.objects
    case fits => exact h.fits
    case kinds => exact h.kinds
    case begun => exact h.begun
    case blank =>
      intro h1
      rw [(h.blank h1).part] at ht
      exact absurd rfl ht
    case args => exact h.args
    case field => exact h.field
    case jobs => exact fun n b hn => h.jobs n b (hjob n b hn)
    case flagged =>
      intro hr
      simp only [State.setPart, Function.update_self, PartState.exited] at hr
      cases hr
    case going =>
      intro hin
      have hgo := h.going hin
      refine ⟨hgo.calm, hgo.monitor, hgo.stored, hgo.test, hgo.tun, hgo.libs, fun _ => ?_, hgo.firm,
        fun hfirst n => ?_⟩
      · obtain ⟨j, hj⟩ := hg rfl
        rcases stopping_cases (h.fits j) hj with hk | ha
        · have := h.kinds j
          rw [hk] at this
          have hout := this.2
          change (s.threads s.session).pc.inSession = true at hin
          rw [hin] at hout
          cases hout
        · exact .inr ⟨j, ha⟩
      · by_contra hn
        obtain ⟨b, hb⟩ := Option.ne_none_iff_exists'.mp hn
        have hold := hjob n b hb
        rw [hgo.silent hfirst n] at hold
        cases hold
  · have hpart := setPart_of_ne (s := s) (x := (s.parts p).exited t) hp
    constructor
    case objects => exact h.objects
    case fits => exact h.fits
    case kinds => exact h.kinds
    case begun => exact h.begun
    case blank =>
      intro h1
      have hblank := h.blank h1
      exact ⟨hblank.tuns, hpart.trans hblank.part, hblank.monitor, hblank.tun, hblank.calm⟩
    case args => exact h.args
    case field => exact h.field
    case jobs =>
      rw [hpart]
      exact h.jobs
    case flagged =>
      rw [Busy, hpart]
      exact h.flagged
    case going =>
      intro hin
      have hgo := h.going hin
      refine ⟨hgo.calm, hgo.monitor, hgo.stored, hgo.test, hgo.tun, hgo.libs, ?_, hgo.firm, ?_⟩
      · rw [hpart]
        exact hgo.native
      · rw [hpart]
        exact hgo.silent

theorem ReadInv.init (env : Env) : ReadInv env init where
  objects := ⟨rfl, fun _ => rfl⟩
  fits _ := rfl
  kinds _ := trivial
  begun := ⟨fun _ => ⟨rfl, rfl⟩, fun _ h => by cases h⟩
  blank _ := ⟨rfl, rfl, rfl, rfl, fun _ => rfl⟩
  args _ _ h := by cases h
  field _ h := by cases h
  jobs _ _ h := by cases h
  flagged h := by cases h
  going h := by cases h

theorem readInv_of_reachable (hb : env.isNativeTun2socksBuilt = true)
    (h : Reachable (step env) init Consistent s) : ReadInv env s := by
  refine h.invariant (.init env) fun s l s' hr hi hg hs => ?_
  have hf := fresh_of_reachable hr
  rcases step_cases hs with ⟨c, rfl, -, rfl⟩ | ⟨i, o, a, pc, rfl, hc, rfl⟩ | ⟨p, t, rfl, -, ht, rfl⟩
  · exact hi.deliver hf (session_lt_of_reachable hr) hg
  · exact hi.after (loaded_of_reachable hr) hf (session_lt_of_reachable hr) hb hc hg
  · exact hi.exit ht hg

/-- **A session has one reader.** When the starts of the engine agree, no interface is read twice, and
the interface of a session in its loop is read unless a restart is under way. -/
theorem single_reader (env : Env) (hb : env.isNativeTun2socksBuilt = true) (s : State)
    (h : Reachable (step env) init Consistent s) : SingleReader s := by
  have hinv := readInv_of_reachable hb h
  have hsession : ∀ i c, (s.threads i).pc = .runVpn c → i = s.session := fun i c hpc => by
    have := hinv.kinds i
    rw [hpc] at this
    exact this.1
  refine ⟨fun t ⟨⟨i, b, hk⟩, n, hn⟩ => ?_, fun i hin hrest => ?_⟩
  · have hfirst : (s.threads s.session).pc.first = some false := by
      rcases hk with hk | hk
      · rw [← hsession i _ hk, hk]
        rfl
      · rw [← hsession i _ hk, hk]
        rfl
    have := (hinv.going (inSession_of_first hfirst)).silent (by rw [hfirst]; simp) n
    rw [this] at hn
    cases hn
  · have hnative : (s.threads i).pc = .runVpn .idle ∨ (s.threads i).pc = .runVpn .sleep →
        ∃ t, (s.tuns t).session = i ∧ NativeReads s t := fun hpc => by
      have hi : i = s.session := by rcases hpc with hpc | hpc <;> exact hsession i _ hpc
      have hfirst : (s.threads s.session).pc.first = some true := by
        rcases hpc with hpc | hpc <;> rw [← hi, hpc] <;> rfl
      rcases (hinv.going (inSession_of_first hfirst)).native hfirst with ⟨n, hn⟩ | ⟨j, hj⟩
      · obtain ⟨b, hb⟩ := Option.ne_none_iff_exists'.mp hn
        obtain ⟨t, rfl, ht⟩ := hinv.jobs n b hb
        exact ⟨t, ht.2.trans hi.symm, n, hb⟩
      · have := restarting_of_ahead hj
        rw [hrest j] at this
        cases this
    have hkotlin : ∀ b t, (s.threads i).pc = .runVpn (.packets b t) ∨ (s.threads i).pc = .runVpn (.read b t) →
        (s.tuns t).session = i ∧ KotlinReads s t := fun b t hpc => by
      have hi : i = s.session := by rcases hpc with hpc | hpc <;> exact hsession i _ hpc
      have ht : Owned s t := hinv.args i t (by rcases hpc with hpc | hpc <;> rw [hpc] <;> rfl)
      exact ⟨ht.2.trans hi.symm, i, b, hpc⟩
    revert hin
    cases hpc : (s.threads i).pc with
    | runVpn c =>
      cases c with
      | idle =>
        obtain ⟨t, ht, hr⟩ := hnative (.inl hpc)
        exact fun _ => ⟨t, ht, .inr hr⟩
      | sleep =>
        obtain ⟨t, ht, hr⟩ := hnative (.inr hpc)
        exact fun _ => ⟨t, ht, .inr hr⟩
      | packets b t => exact fun _ => ⟨t, (hkotlin b t (.inl hpc)).1, .inl (hkotlin b t (.inl hpc)).2⟩
      | read b t => exact fun _ => ⟨t, (hkotlin b t (.inr hpc)).1, .inl (hkotlin b t (.inr hpc)).2⟩
      | _ => intro hin; cases hin
    | _ => intro hin; cases hin

/-- A check for `OneSession`. -/
def oneSession (s : State) : Label → Bool
  | .deliver c =>
    match c with
    | .start _ => s.last = none
    | _ => false
  | _ => true

theorem oneSession_of_check (s : State) (l : Label) (h : oneSession s l = true) : OneSession s l := by
  cases l with
  | deliver c =>
    cases c with
    | start id => exact ⟨by simpa [oneSession] using h, id, rfl⟩
    | _ => cases h
  | _ => trivial

/-- A check for `Consistent`. -/
def consistent (s : State) : Label → Bool
  | .deliver c => oneSession s (.deliver c)
  | .run i o =>
    match (s.threads s.session).pc.first with
    | some false => !((s.threads i).pc.stage .tun2socks = .create && o = .ok)
    | some true => !((s.threads i).pc.restarting && (s.threads i).pc.fallible) || o = .ok
    | none => true
  | .exit p _ => p ≠ .tun2socks || (List.range s.spawned).any fun j =>
    match (s.threads j).pc.stage .tun2socks with
    | .join | .joining _ => true
    | _ => false

theorem consistent_of_check (s : State) (l : Label) (h : consistent s l = true) : Consistent s l := by
  cases l with
  | deliver c => exact oneSession_of_check s (.deliver c) h
  | run i o =>
    simp only [consistent] at h
    refine ⟨fun hf site b hpc => ?_, fun hf hr hfall => ?_⟩
    · rw [hf, hpc] at h
      simpa [Pc.stage, Start.stage] using h
    · rw [hf, hr, hfall] at h
      simpa using h
  | exit p t =>
    intro hp
    subst hp
    simp only [consistent, ne_eq, not_true_eq_false, decide_false, Bool.false_or, List.any_eq_true] at h
    obtain ⟨j, -, hj⟩ := h
    refine ⟨j, ?_⟩
    cases hst : (s.threads j).pc.stage .tun2socks with
    | join => exact .inl rfl
    | joining u => exact .inr ⟨u, rfl⟩
    | _ =>
      rw [hst] at hj
      cases hj

/-- The restart `AsnAutoDetect` makes of an engine that runs. -/
def restartLabels (i : ℕ) : List Label :=
  [.run i .ok, .run i .ok, .run i (.suggests (some "mts-ru"))] ++ List.replicate 7 (.run i .ok) ++
    .exit .tun2socks 0 :: List.replicate 4 (.run i .ok) ++
    .exit .ciadpi 0 :: List.replicate 19 (.run i .ok)

theorem single_reader_restart :
    ∃ s, Reachable (step deviceEnv) init Consistent s ∧ NativeReads s 0 ∧ SingleReader s := by
  obtain ⟨s, hs, hf⟩ := reachable_of_run (step deviceEnv) init (c := consistent)
    (fun s l _ => consistent_of_check s l) (startLabels none ++ sessionLabels 1 ++ restartLabels 3)
    (fun s => ((s.threads 1).pc, (s.threads 3).pc, (s.parts .tun2socks).job 1))
    (b := (.runVpn .idle, .ended, some (.bridge 0))) (by decide +kernel)
  simp only [Prod.mk.injEq] at hf
  exact ⟨s, hs, ⟨1, hf.2.2⟩, single_reader deviceEnv rfl s hs⟩

/-- The first start fails and the session reads its interface itself; then `AsnAutoDetect` restarts the
engine, and tun2socks reads the same interface. -/
theorem two_readers : ¬ ∀ (env : Env) (s : State), env.isNativeTun2socksBuilt = true →
    Reachable (step env) init OneSession s → SingleReader s := by
  intro h
  obtain ⟨s, hs, hf⟩ := reachable_of_run (step deviceEnv) init (c := oneSession)
    (fun s l _ => oneSession_of_check s l)
    (startLabels none ++ .run 1 (.network true) :: List.replicate 13 (.run 1 .ok) ++
      .run 1 .fail :: List.replicate 6 (.run 1 .ok) ++
      [.run 3 .ok, .run 3 .ok, .run 3 (.suggests (some "mts-ru"))] ++ List.replicate 24 (.run 3 .ok))
    (fun s => ((s.threads 1).pc, (s.parts .tun2socks).job 0))
    (b := (.runVpn (.packets false 0), some (.bridge 0))) (by decide +kernel)
  simp only [Prod.mk.injEq] at hf
  exact (h deviceEnv s rfl hs).1 0 ⟨⟨1, false, .inl hf.1⟩, 0, hf.2⟩

end BypassVpn.Service
