import BypassVpn.Service.Parts
import BypassVpn.Service.Tunnel

/-!
# A stop is final

After the last `STOP` (or `onDestroy`), once every thread has ended, no interface may be open and no
part of the engine may run. `stopVpn` can only release what is there when it looks: the interface and
the parts of the engine are acquired by other threads, later than their tests of `isRunning`.

* `Stopped`, `Released`: the promise; `Timely`: what the threads have to keep to.
* `TunInv`: every open interface is accounted for.
* `Commanded`: only a start sets `isRunning`; `Wanted`: what runs will be stopped.
* **`stop_is_final`**, and `stop_missed`: without the restriction a stop may be missed.
-/

namespace BypassVpn.Service

open Transition

variable {env : Env} {s s' : State} {i j k : ℕ} {o : Outcome} {a : Act} {pc pc' q : Pc} {p : Part}

/-- The last command was a stop, and every thread has ended. -/
def Stopped (s : State) : Prop :=
  (s.last = some .stop ∨ s.last = some .destroy) ∧ ∀ i, (s.threads i).pc = .ended

/-- No interface is open and nothing of the engine runs. -/
def Released (s : State) : Prop :=
  (∀ t, (s.tuns t).isOpen = false) ∧ ∀ p t, (s.parts p).job t = none

/-! ### What lies ahead of a thread -/

/-- The interface is being closed. -/
def TunStage.closes : TunStage → Bool
  | .clear | .close => true
  | _ => false

/-- Some thread is going to close the interface of the service object. -/
def WillClose (s : State) (k : ℕ) : Prop :=
  ∃ j, (s.threads j).object = k ∧ (s.threads j).pc.tunStage.closes = true

/-- The stop of an engine is ahead, or it waits for the thread that `h` refers to. -/
def Stop.ahead (h : Option ℕ) : Stop → Bool
  | .test | .join => true
  | .joining t => h = some t
  | .clear => false

/-- A stop of the part is ahead of the thread, whatever happens. -/
def Pc.stops (p : Part) (h : Option ℕ) : Pc → Bool
  | .stopVpn c =>
    match c with
    | .test | .keep _ => false
    | _ => true
  | .stopLibs _ => true
  | .stopTun2socks _ c => p ≠ .tun2socks || c.ahead h
  | .stopCiadpi _ c => p = .protect || (p = .ciadpi && c.ahead h)
  | .stopProtect _ c => p = .protect && c ≠ .drop
  | .undoCiadpi _ c => p = .ciadpi && c.ahead h
  | _ => false

/-- Some thread is going to stop the part. -/
def WillStop (s : State) (p : Part) : Prop :=
  ∃ j, (s.threads j).pc.stops p (s.parts p).handle = true

/-! ### The restriction -/

/-- `vpnInterface = builder.establish()` overwrites no open interface, and what it stores will be
closed: the service is running, or a `stopVpn` is still before its `close()`. -/
def CanStore (s : State) (i : ℕ) (t : Option ℕ) : Prop :=
  (∀ u, (s.view i).vpnInterface = some u → (s.tuns u).isOpen = false) ∧
    (t ≠ none → (∀ j, (s.threads j).object = (s.threads i).object → (s.threads j).pc.tunStage ≠ .drop) ∧
      ((s.view i).isRunning = true ∨ WillClose s (s.threads i).object))

/-- `isRunning = false` after a failed `establish()` leaves nothing behind that no stop is ahead of. -/
def CanGiveUp (s : State) (i : ℕ) : Prop :=
  (∀ u, (s.view i).vpnInterface = some u → (s.tuns u).isOpen = true → WillClose s (s.threads i).object) ∧
    ∀ p t, (s.parts p).job t ≠ none →
      (∃ k, k ≠ (s.threads i).object ∧ (s.fields k).isRunning = true) ∨ WillStop s p

/-- What a statement has to keep to. -/
structure TimelyStep (s : State) (i : ℕ) (a : Act) (pc : Pc) : Prop where
  /-- A thread passes the test of a start or stop of a part only while no other one is past its. -/
  alone : ∀ p, (s.threads i).pc.stage p = .out → pc.stage p ≠ .out → ∀ j, j ≠ i →
    (s.threads j).pc.stage p = .out
  /-- A part is brought up only while the service is running or a stop of the part is ahead. -/
  wanted : ∀ p, a.acquires p = true → (s.view i).isRunning = true ∨ WillStop s p
  store : ∀ t, (s.threads i).pc = .runVpn (.store t) → CanStore s i t
  giveUp : (s.threads i).pc = .runVpn .giveUp → CanGiveUp s i

/-- The threads acquire in time. -/
def Timely (env : Env) (s : State) : Label → Prop
  | .run i o => ∀ a pc, code env s i (s.threads i).pc o = some (a, pc) → TimelyStep s i a pc
  | _ => True

/-! ### Every open interface is accounted for -/

/-- The interface is in the field of a service object that is running, or that a `stopVpn` will close.
-/
def Kept (s : State) (t : ℕ) : Prop :=
  ∃ k, (s.fields k).vpnInterface = some t ∧ ((s.fields k).isRunning = true ∨ WillClose s k)

/-- An open interface is kept by its session, or about to be. -/
structure TunInv (s : State) : Prop where
  kept : ∀ t, (s.tuns t).isOpen = true → Kept s t ∨ ∃ j, (s.threads j).pc.tunStage = .store (some t)
  dropped : ∀ j, (s.threads j).pc.tunStage = .drop → ∀ t, (s.view j).vpnInterface = some t →
    (s.tuns t).isOpen = false
  field_lt : ∀ k t, (s.fields k).vpnInterface = some t → t < s.established
  store_lt : ∀ j t, (s.threads j).pc.tunStage = .store (some t) → t < s.established

/-- A thread at a stage, after a statement of another one. -/
theorem after_stage (hf : Fresh s) (hi : (s.threads i).pc ≠ .ended)
    (hnew : ∀ q, a.spawns = some q → q.tunStage = .out) {st : TunStage} (hst : st ≠ .out)
    (hj : ((after s i a pc).threads j).pc.tunStage = st) :
    j = i ∧ pc.tunStage = st ∧ ((after s i a pc).threads j).object = (s.threads i).object ∨
    j ≠ i ∧ (after s i a pc).threads j = s.threads j := by
  rcases after_cases hf hi a pc j with ⟨rfl, he⟩ | ⟨q, ha, -, he⟩ | ⟨hne, he⟩
  · rw [he] at hj ⊢
    exact .inl ⟨rfl, hj, rfl⟩
  · rw [he, hnew q ha] at hj
    exact absurd hj.symm hst
  · exact .inr ⟨hne, he⟩

theorem WillClose.after (hf : Fresh s) (hi : (s.threads i).pc ≠ .ended) (h : WillClose s k)
    (hpc : k = (s.threads i).object → (s.threads i).pc.tunStage.closes = true → pc.tunStage.closes = true) :
    WillClose (after s i a pc) k := by
  obtain ⟨j, hj, hc⟩ := h
  by_cases hji : j = i
  · subst hji
    refine ⟨j, ?_, ?_⟩
    · rw [after_self (Nat.ne_of_lt (hf.lt hi))]
      exact hj
    · rw [after_self (Nat.ne_of_lt (hf.lt hi))]
      exact hpc hj.symm hc
  · have hne : (s.threads j).pc ≠ .ended := fun he => by
      rw [he] at hc
      cases hc
    exact ⟨j, by rw [after_same hf hji hne]; exact hj, by rw [after_same hf hji hne]; exact hc⟩

/-- The thread that holds a new interface still does, unless it was its turn. -/
theorem storing_after (hf : Fresh s) {t : ℕ} (h : ∃ j, (s.threads j).pc.tunStage = .store (some t))
    (hi : (s.threads i).pc.tunStage ≠ .store (some t)) :
    ∃ j, ((after s i a pc).threads j).pc.tunStage = .store (some t) := by
  obtain ⟨j, hj⟩ := h
  have hne : (s.threads j).pc ≠ .ended := fun he => by
    rw [he] at hj
    cases hj
  have hji : j ≠ i := fun he => hi (he ▸ hj)
  exact ⟨j, by rw [after_same hf hji hne]; exact hj⟩

/-- The service object keeps its interface and its `isRunning`, and its closing is still ahead. -/
theorem Kept.after {t : ℕ} (hf : Fresh s) (hi : (s.threads i).pc ≠ .ended) (h : Kept s t)
    (hown : (s.view i).vpnInterface = some t → (a.onFields (s.view i)).vpnInterface = some t ∧
      ((s.view i).isRunning = true ∨ WillClose s (s.threads i).object →
        (a.onFields (s.view i)).isRunning = true ∨ WillClose (after s i a pc) (s.threads i).object)) :
    Kept (after s i a pc) t := by
  obtain ⟨k, hk, hw⟩ := h
  by_cases hki : k = (s.threads i).object
  · subst hki
    obtain ⟨hv, hw'⟩ := hown hk
    refine ⟨(s.threads i).object, ?_, ?_⟩
    · rw [after_fields_self]
      exact hv
    · rw [after_fields_self]
      exact hw' hw
  · refine ⟨k, ?_, ?_⟩
    · rw [after_fields_of_ne hki]
      exact hk
    · rw [after_fields_of_ne hki]
      rcases hw with hw | hw
      · exact .inl hw
      · exact .inr (hw.after hf hi fun h => absurd h hki)

theorem TunInv.kept_after (h : TunInv s) (hf : Fresh s) (hc : code env s i (s.threads i).pc o = some (a, pc))
    (hg : TimelyStep s i a pc) (t : ℕ) (ht : ((after s i a pc).tuns t).isOpen = true) :
    Kept (after s i a pc) t ∨ ∃ j, ((after s i a pc).threads j).pc.tunStage = .store (some t) := by
  have hi := pc_ne_ended hc
  have hs := code_tun hc
  have hself : (after s i a pc).threads i = { pc := pc, object := (s.threads i).object } :=
    after_self (Nat.ne_of_lt (hf.lt hi))
  -- what happens to an interface that was open before
  have hold : (s.tuns t).isOpen = true →
      (∀ t', (s.threads i).pc.tunStage = .store t' → t' ≠ some t) →
      ((s.view i).vpnInterface = some t → (a.onFields (s.view i)).vpnInterface = some t ∧
        ((s.view i).isRunning = true ∨ WillClose s (s.threads i).object →
          (a.onFields (s.view i)).isRunning = true ∨ WillClose (after s i a pc) (s.threads i).object)) →
      Kept (after s i a pc) t ∨ ∃ j, ((after s i a pc).threads j).pc.tunStage = .store (some t) := by
    intro hopen hstore hown
    rcases h.kept t hopen with hk | hj
    · exact .inl (hk.after hf hi hown)
    · exact .inr (storing_after hf hj fun he => hstore _ he rfl)
  generalize hst : (s.threads i).pc.tunStage = st at hs hold
  generalize hst' : pc.tunStage = st' at hs
  have hclose : st.closes = true → st'.closes = true →
      WillClose s (s.threads i).object → WillClose (after s i a pc) (s.threads i).object :=
    fun _ h' hw => hw.after hf hi fun _ _ => by rw [hst']; exact h'
  have hfree : st.closes = false → WillClose s (s.threads i).object →
      WillClose (after s i a pc) (s.threads i).object :=
    fun h' hw => hw.after hf hi fun _ hcl => by rw [hst, h'] at hcl; cases hcl
  have hwill : st'.closes = true → WillClose (after s i a pc) (s.threads i).object := fun h' =>
    ⟨i, by rw [hself], by rw [hself]; simp only [hst']; exact h'⟩
  cases hs with
  | idle hl =>
    rw [after_tuns, leavesTun_tuns hl] at ht
    obtain ⟨hv, hr⟩ := leavesTun_fields hl (s.view i)
    exact hold ht (by simp) fun hk => ⟨by rw [hv, hk], fun hw => hw.imp (by rw [hr]; exact id) (hfree rfl)⟩
  | start => exact hold ht (by simp) fun hk => ⟨hk, fun _ => .inl rfl⟩
  | establish =>
    by_cases hte : t = s.established
    · subst hte
      exact .inr ⟨i, by rw [hself]; exact hst'⟩
    · simp only [after_tuns, Act.onTuns, Function.update_of_ne hte] at ht
      exact hold ht (by simp) fun hk => ⟨hk, fun hw => hw.imp id (hfree rfl)⟩
  | establishFails => exact hold ht (by simp) fun hk => ⟨hk, fun hw => hw.imp id (hfree rfl)⟩
  | @store t' =>
    obtain ⟨hclosed, hnew⟩ := hg.store t' (pc_of_store hst)
    by_cases hts : t' = some t
    · subst hts
      refine .inl ⟨(s.threads i).object, ?_, ?_⟩
      · rw [after_fields_self]
        rfl
      · rw [after_fields_self]
        exact (hnew (by simp)).2.imp id (hfree rfl)
    · refine hold ht (by simpa using hts) fun hk => ?_
      change (s.tuns t).isOpen = true at ht
      rw [hclosed t hk] at ht
      cases ht
  | testFails => exact hold ht (by simp) fun hk => ⟨hk, fun hw => hw.imp id (hfree rfl)⟩
  | giveUp =>
    have hcan := hg.giveUp (pc_of_giveUp hst)
    exact hold ht (by simp) fun hk => ⟨hk, fun _ => .inr (hfree rfl (hcan.1 t hk ht))⟩
  | stop => exact hold ht (by simp) fun hk => ⟨hk, fun _ => .inr (hwill rfl)⟩
  | clear => exact hold ht (by simp) fun hk => ⟨hk, fun _ => .inr (hwill rfl)⟩
  | closing hl =>
    rw [after_tuns, leavesTun_tuns hl] at ht
    obtain ⟨hv, hr⟩ := leavesTun_fields hl (s.view i)
    exact hold ht (by simp) fun hk => ⟨by rw [hv, hk], fun _ => .inr (hwill rfl)⟩
  | close =>
    have hopen := isOpen_closeTun.mp ht
    exact hold hopen.1 (by simp) fun hk => absurd hk hopen.2
  | drop =>
    refine hold ht (by simp) fun hk => ?_
    have := h.dropped i hst t hk
    change (s.tuns t).isOpen = true at ht
    rw [this] at ht
    cases ht

theorem TunInv.dropped_after (h : TunInv s) (hf : Fresh s)
    (hc : code env s i (s.threads i).pc o = some (a, pc)) (hg : TimelyStep s i a pc)
    (hj : ((after s i a pc).threads j).pc.tunStage = .drop) (t : ℕ)
    (hv : ((after s i a pc).view j).vpnInterface = some t) : ((after s i a pc).tuns t).isOpen = false := by
  have hi := pc_ne_ended hc
  have hs := code_tun hc
  rw [State.view] at hv
  by_contra hopen
  simp only [Bool.not_eq_false] at hopen
  rcases after_stage hf hi (fun q => spawns_tunStage hc) (by simp) hj with ⟨rfl, hst, hobj⟩ | ⟨hji, he⟩
  · -- the thread has just closed the interface
    rw [hobj, after_fields_self] at hv
    rw [hst] at hs
    generalize (s.threads j).pc.tunStage = st at hs
    cases hs
    exact (isOpen_closeTun.mp hopen).2 hv
  · rw [he] at hj hv
    -- nobody else gives the service object an interface, or opens the one it has
    have hsame : (s.view j).vpnInterface = some t → False := fun hvj => by
      rcases isOpen_onTuns hopen with ho | ho
      · rw [h.dropped j hj t hvj] at ho
        cases ho
      · exact absurd (h.field_lt _ t hvj) (by omega)
    by_cases hobj : (s.threads j).object = (s.threads i).object
    · rw [hobj, after_fields_self] at hv
      rcases onFields_vpnInterface a (s.view i) with hk | hset
      · rw [hk] at hv
        exact hsame (by rw [State.view, hobj]; exact hv)
      · rw [hv] at hset
        subst hset
        generalize hst : (s.threads i).pc.tunStage = st at hs
        generalize pc.tunStage = st' at hs
        cases hs with
        | idle hl => cases hl
        | closing hl => cases hl
        | store => exact ((hg.store _ (pc_of_store hst)).2 (by simp)).1 j hobj hj
    · rw [after_fields_of_ne hobj] at hv
      exact hsame hv

theorem TunInv.field_lt_after (h : TunInv s) (hc : code env s i (s.threads i).pc o = some (a, pc)) (t : ℕ)
    (hv : ((after s i a pc).fields k).vpnInterface = some t) : t < (after s i a pc).established := by
  have hle := le_established s i a pc
  by_cases hk : k = (s.threads i).object
  · rw [hk, after_fields_self] at hv
    rcases onFields_vpnInterface a (s.view i) with he | he
    · rw [he] at hv
      have := h.field_lt _ t hv
      omega
    · have hs := code_tun hc
      rw [hv] at he
      subst he
      generalize hst : (s.threads i).pc.tunStage = st at hs
      generalize pc.tunStage = st' at hs
      cases hs with
      | idle hl => cases hl
      | closing hl => cases hl
      | store =>
        have := h.store_lt i t hst
        omega
  · rw [after_fields_of_ne hk] at hv
    have := h.field_lt k t hv
    omega

theorem TunInv.store_lt_after (h : TunInv s) (hf : Fresh s)
    (hc : code env s i (s.threads i).pc o = some (a, pc)) (t : ℕ)
    (hj : ((after s i a pc).threads j).pc.tunStage = .store (some t)) : t < (after s i a pc).established := by
  have hle := le_established s i a pc
  rcases after_stage hf (pc_ne_ended hc) (fun q => spawns_tunStage hc) (by simp) hj with
    ⟨rfl, hst, -⟩ | ⟨-, he⟩
  · have hs := code_tun hc
    rw [hst] at hs
    generalize (s.threads j).pc.tunStage = st at hs
    cases hs
    simp [after, State.setPc, act]
  · rw [he] at hj
    have := h.store_lt j t hj
    omega

/-- **A timely statement keeps the interfaces accounted for.** -/
theorem TunInv.after (h : TunInv s) (hf : Fresh s) (hc : code env s i (s.threads i).pc o = some (a, pc))
    (hg : TimelyStep s i a pc) : TunInv (after s i a pc) :=
  ⟨h.kept_after hf hc hg, fun _ => h.dropped_after hf hc hg, fun _ => h.field_lt_after hc,
    fun _ => h.store_lt_after hf hc⟩

/-! ### Who sets `isRunning` -/

/-- The last command was a start. -/
def Started (s : State) : Prop := ∃ id, s.last = some (.start id)

/-- Only a start sets `isRunning`, and a stop that was delivered after it clears it. -/
structure Commanded (s : State) : Prop where
  main : (s.threads 0).pc ≠ .ended → (s.threads 0).object = s.object
  starts : ∀ j c, (s.threads j).pc = .onStart c → j = 0 ∧ Started s
  running : ∀ k, (s.fields k).isRunning = true → k = s.object ∧
    (Started s ∨ (s.threads 0).pc = .stopVpn .test ∨ (s.threads 0).pc = .stopVpn .clearRunning)

theorem code_onStart {c : OnStart} (h : code env s i pc o = some (a, .onStart c)) : ∃ c', pc =
    .onStart c' := by
  by_cases hpc : pc.inEngine = true
  · rcases (code_inEngine hpc h).2 with he | ⟨site, b, he | he⟩
    · cases he
    · cases site <;> cases he
    · cases site <;> cases he
  revert h
  cases pc with
  | ended => intro h; cases h
  | onStart c => exact fun _ => ⟨c, rfl⟩
  | stopVpn c =>
    change StopVpn.code s i c o = _ → _
    fun_cases StopVpn.code s i c o <;> intro h <;> cases h
  | runVpn c =>
    change RunVpn.code env s i c o = _ → _
    fun_cases RunVpn.code env s i c o <;> intro h <;> cases h
  | asn c =>
    change AsnAutoDetect.code s i c o = _ → _
    fun_cases AsnAutoDetect.code s i c o <;> intro h <;> cases h
  | monitor w c =>
    change PresetMonitor.code s i w c o = _ → _
    fun_cases PresetMonitor.code s i w c o <;> intro h <;> cases h
  | restart site c =>
    change Restart.code s i site c o = _ → _
    cases site <;> fun_cases Restart.code s i _ c o <;> intro h <;> cases h
  | _ => exact absurd rfl hpc

theorem code_setRunning (h : code env s i pc o = some (.setRunning true, pc')) : pc =
    .onStart .setRunning := by
  by_cases hpc : pc.inEngine = true
  · cases (code_inEngine hpc h).1
  revert h
  cases pc with
  | ended => intro h; cases h
  | onStart c =>
    change OnStart.code s i c o = _ → _
    fun_cases OnStart.code s i c o <;> intro h <;> cases h
    rfl
  | stopVpn c =>
    change StopVpn.code s i c o = _ → _
    fun_cases StopVpn.code s i c o <;> intro h <;> cases h
  | runVpn c =>
    change RunVpn.code env s i c o = _ → _
    fun_cases RunVpn.code env s i c o <;> intro h <;> cases h
  | asn c =>
    change AsnAutoDetect.code s i c o = _ → _
    fun_cases AsnAutoDetect.code s i c o <;> intro h <;> cases h
  | monitor w c =>
    change PresetMonitor.code s i w c o = _ → _
    fun_cases PresetMonitor.code s i w c o <;> intro h <;> cases h
  | restart site c =>
    change Restart.code s i site c o = _ → _
    fun_cases Restart.code s i site c o <;> intro h <;> cases h
  | _ => exact absurd rfl hpc

theorem onFields_isRunning (a : Act) (f : Fields) :
    (a.onFields f).isRunning = f.isRunning ∨ a = .setRunning (a.onFields f).isRunning := by
  cases a <;> first | exact .inl rfl | exact .inr rfl

/-- A service object that is running was so before, or the main thread has just set it. -/
theorem isRunning_after (hc : code env s i (s.threads i).pc o = some (a, pc))
    (hk : ((after s i a pc).fields k).isRunning = true) :
    (s.fields k).isRunning = true ∧ (k = (s.threads i).object → a ≠ .setRunning false) ∨
    (s.threads i).pc = .onStart .setRunning ∧ k = (s.threads i).object := by
  by_cases hki : k = (s.threads i).object
  · subst hki
    rw [after_fields_self] at hk
    rcases onFields_isRunning a (s.view i) with he | he
    · refine .inl ⟨?_, fun _ ha => ?_⟩
      · rw [he] at hk
        exact hk
      · subst ha
        cases hk
    · rw [hk] at he
      subst he
      exact .inr ⟨code_setRunning hc, rfl⟩
  · rw [after_fields_of_ne hki] at hk
    exact .inl ⟨hk, fun h => absurd h hki⟩

theorem Commanded.after (h : Commanded s) (hf : Fresh s)
    (hc : code env s i (s.threads i).pc o = some (a, pc)) :
    Commanded (after s i a pc) := by
  have hi := pc_ne_ended hc
  have hself : (Service.after s i a pc).threads i = { pc := pc, object := (s.threads i).object } :=
    after_self (Nat.ne_of_lt (hf.lt hi))
  refine ⟨fun h0 => ?_, fun j c hj => ?_, fun k hk => ?_⟩
  · by_cases hi0 : i = 0
    · subst hi0
      rw [hself]
      exact h.main hi
    · rw [after_of_ne (Ne.symm hi0) (Nat.ne_of_lt hf.1)] at h0 ⊢
      exact h.main h0
  · rcases after_cases hf hi a pc j with ⟨rfl, he⟩ | ⟨q, ha, -, he⟩ | ⟨-, he⟩
    · rw [he] at hj
      simp only at hj
      subst hj
      obtain ⟨c', hc'⟩ := code_onStart hc
      exact h.starts j c' hc'
    · rw [he] at hj
      simp only at hj
      subst hj
      rcases code_spawns hc ha with ⟨-, h, -⟩ | ⟨-, h, -⟩ | ⟨b, -, h, -⟩ | ⟨b, -, h, -⟩ <;> cases h
    · rw [he] at hj
      exact h.starts j c hj
  · rcases isRunning_after hc hk with ⟨hrunning, hclear⟩ | ⟨hpc, rfl⟩
    · obtain ⟨hobj, hst⟩ := h.running k hrunning
      refine ⟨hobj, ?_⟩
      rcases hst with hst | hst
      · exact .inl hst
      · have h0 : (s.threads 0).pc ≠ .ended := by rcases hst with hst | hst <;> rw [hst] <;> simp
        by_cases hi0 : i = 0
        · subst hi0
          have hk0 : k = (s.threads 0).object := hobj.trans (h.main h0).symm
          have hrun : (s.view 0).isRunning = true := by rw [State.view, ← hk0]; exact hrunning
          -- the stop finds `isRunning` set and clears it
          rcases hst with hst | hst
          · rw [hst] at hc
            revert hc
            change StopVpn.code s 0 .test o = _ → _
            cases o <;> simp only [StopVpn.code, hrun, if_true, reduceCtorEq, false_implies,
              Option.some.injEq, Prod.mk.injEq]
            rintro ⟨rfl, rfl⟩
            exact .inr (.inr (by rw [hself]))
          · rw [hst] at hc
            revert hc
            change StopVpn.code s 0 .clearRunning o = _ → _
            cases o <;> simp only [StopVpn.code, reduceCtorEq, false_implies, Option.some.injEq,
              Prod.mk.injEq]
            rintro ⟨rfl, rfl⟩
            exact absurd rfl (hclear hk0)
        · rw [after_same hf (Ne.symm hi0) h0]
          exact .inr hst
    · obtain ⟨rfl, hst⟩ := h.starts i _ hpc
      exact ⟨h.main hi, .inl hst⟩

theorem Commanded.deliver (h : Commanded s) (hmain : (s.threads 0).pc = .ended) (c : Command) :
    Commanded (delivered s c (if s.last = some .destroy then s.object + 1 else s.object)) := by
  refine ⟨fun _ => by simp [delivered], fun j d hj => ?_, fun k hk => ?_⟩
  · rcases delivered_threads s c _ j with ⟨rfl, he⟩ | ⟨hj0, he⟩
    · rw [he] at hj
      cases c with
      | start id => exact ⟨rfl, id, rfl⟩
      | _ => cases hj
    · rw [he] at hj
      exact absurd (h.starts j d hj).1 hj0
  · obtain ⟨hobj, ⟨id, hst⟩ | hst | hst⟩ := h.running k hk
    · have hlast : s.last ≠ some .destroy := by rw [hst]; simp
      refine ⟨hobj.trans (if_neg hlast).symm, ?_⟩
      cases c with
      | start id => exact .inl ⟨id, rfl⟩
      | _ => exact .inr (.inl (by simp [delivered, Command.pc]))
    · rw [hmain] at hst
      cases hst
    · rw [hmain] at hst
      cases hst

theorem commanded_of_reachable {guard : State → Label → Prop} (h : Reachable (step env) init guard s) :
    Commanded s := by
  refine h.invariant ⟨fun h0 => absurd rfl h0, fun _ _ hc => (by cases hc), fun _ hk => (by cases hk)⟩
    fun s l s' hr hi _ hs => ?_
  rcases step_cases hs with ⟨c, -, hmain, rfl⟩ | ⟨i, o, a, pc, -, hc, rfl⟩ | ⟨p, t, -, -, -, rfl⟩
  · exact hi.deliver hmain c
  · exact hi.after (fresh_of_reachable hr) hc
  · exact ⟨hi.main, hi.starts, hi.running⟩

/-! ### What runs will be stopped -/

/-- A stop that is ahead stays ahead, or is handed to a new thread, until nothing of the part runs. -/
theorem code_stops (h : code env s i pc o = some (a, pc')) (hs : pc.stops p (s.parts p).handle = true) :
    pc'.stops p (a.onPart p (s.parts p)).handle = true ∨
    (∃ q, a.spawns = some q ∧ q.stops p (a.onPart p (s.parts p)).handle = true) ∨
    env.nativeLibsLoaded = false ∨ (p ≠ .protect ∧ (s.parts p).running = false ∧ a = .skip) ∨
    pc'.stage p = .clear ∨ pc'.stage p = .drop := by
  revert h
  cases pc with
  | stopVpn c =>
    change StopVpn.code s i c o = _ → _
    fun_cases StopVpn.code s i c o <;> intro h <;> cases h <;> first | exact .inl rfl | cases hs
    exact .inr (.inl ⟨_, rfl, rfl⟩)
  | stopLibs site =>
    change stopLibs env site o = _ → _
    fun_cases stopLibs env site o <;> intro h <;> cases h
    · exact .inl (by simp [Pc.stops, Stop.ahead])
    · exact .inr (.inr (.inl (eq_false_of_ne_true ‹_›)))
  | stopTun2socks site c =>
    change Stop.code s _ _ _ c o = _ → _
    fun_cases Stop.code s .tun2socks (.stopTun2socks site) (.stopCiadpi site .test) c o <;> intro h <;>
      cases h <;> cases p <;> simp_all [Pc.stops, Stop.ahead, Pc.stage, Stop.stage, Act.onPart]
  | stopCiadpi site c =>
    change Stop.code s _ _ _ c o = _ → _
    fun_cases Stop.code s .ciadpi (.stopCiadpi site) (.stopProtect site .clear) c o <;> intro h <;>
      cases h <;> cases p <;> simp_all [Pc.stops, Stop.ahead, Pc.stage, Stop.stage, Act.onPart]
  | undoCiadpi site c =>
    change Stop.code s _ _ _ c o = _ → _
    fun_cases Stop.code s .ciadpi (.undoCiadpi site) (site.started false) c o <;> intro h <;>
      cases h <;> cases p <;> simp_all [Pc.stops, Stop.ahead, Pc.stage, Stop.stage, Act.onPart]
  | stopProtect site c =>
    change StopServer.code _ _ c o = _ → _
    fun_cases StopServer.code (.stopProtect site) site.stopped c o <;> intro h <;>
      cases h <;> cases p <;> simp_all [Pc.stops, Pc.stage, StopServer.stage, Act.onPart]
  | _ => cases hs

theorem PartStep.handle {x x' : PartState} {st st' : Stage} (h : PartStep x st x' st') :
    x'.handle = x.handle ∨ st ≠ .out := by
  cases h <;> first | exact .inl rfl | exact .inr (by simp)

/-- Only a thread that waits in `pthread_join` depends on the handle. -/
theorem stops_of_handle {h h' : Option ℕ} (hs : pc.stops p h = true) (hst : pc.stage p = .out) :
    pc.stops p h' = true := by
  have hstop : ∀ c : Stop, c.stage = .out → c.ahead h' = true := fun c hc => by
    cases c <;> first | rfl | cases hc
  cases pc with
  | stopTun2socks site c =>
    cases p with
    | tun2socks => simp [Pc.stops, hstop c hst]
    | _ => rfl
  | stopCiadpi site c =>
    cases p with
    | ciadpi => simp [Pc.stops, hstop c hst]
    | protect => rfl
    | tun2socks => cases hs
  | undoCiadpi site c =>
    cases p with
    | ciadpi => simp [Pc.stops, hstop c hst]
    | _ => cases hs
  | _ => exact hs

/-- Every part has a single user, and its state agrees with it. -/
def PartsInv (s : State) : Prop := ∀ p, PartInv (s.parts p) fun j => (s.threads j).pc.stage p

theorem PartsInv.after (h : PartsInv s) (hf : Fresh s) (hc : code env s i (s.threads i).pc o = some (a, pc))
    (hg : TimelyStep s i a pc) : PartsInv (after s i a pc) := fun p => by
  rw [after_stages p hf hc]
  exact (h p).step (code_part p hc) (hg.alone p)

/-- A part that runs is wanted: the service is running, or some thread is going to stop the part. -/
def Wanted (s : State) : Prop :=
  ∀ p t, (s.parts p).job t ≠ none → (∃ k, (s.fields k).isRunning = true) ∨ WillStop s p

theorem stops_after (hp : PartsInv s) (hf : Fresh s) (hc : code env s i (s.threads i).pc o = some (a, pc))
    (hji : j ≠ i) (hj : (s.threads j).pc.stops p (s.parts p).handle = true) :
    WillStop (after s i a pc) p := by
  have hne : (s.threads j).pc ≠ .ended := fun he => by
    rw [he] at hj
    cases hj
  refine ⟨j, ?_⟩
  rw [after_same hf hji hne]
  rcases (code_part p hc).handle with h | h
  · rw [after_parts, h]
    exact hj
  · refine stops_of_handle hj ?_
    by_contra hst
    exact hji ((hp p).alone j i hst h)

theorem WillStop.after {t : ℕ} (hw : WillStop s p) (hp : PartsInv s) (hp' : PartsInv (after s i a pc))
    (hl : Loaded env s) (hf : Fresh s) (hc : code env s i (s.threads i).pc o = some (a, pc))
    (ht : (s.parts p).job t ≠ none) (ht' : ((after s i a pc).parts p).job t ≠ none) :
    WillStop (after s i a pc) p := by
  have hi := pc_ne_ended hc
  have hself : (Service.after s i a pc).threads i = { pc := pc, object := (s.threads i).object } :=
    after_self (Nat.ne_of_lt (hf.lt hi))
  obtain ⟨j, hj⟩ := hw
  by_cases hji : j = i
  · subst hji
    have hk : Knows ((Service.after s j a pc).parts p) (pc.stage p) := by
      have := (hp' p).knows j
      simp only [hself] at this
      exact this
    rcases code_stops hc hj with h | ⟨q, ha, hq⟩ | h | ⟨hne, hrun, rfl⟩ | h | h
    · exact ⟨j, by rw [hself]; exact h⟩
    · have hsp := @after_spawned s j a pc _ (Nat.ne_of_lt (hf.lt hi)).symm ha
      exact ⟨s.spawned, by rw [hsp]; exact hq⟩
    · rw [hl.job p t ht] at h
      cases h
    · rcases (hp p).recorded t ht with ⟨-, h⟩ | ⟨k, h⟩
      · rw [hrun] at h
        cases h
      · rw [server_stage_of_ne hne] at h
        cases h
    · rw [h] at hk
      exact absurd (hk t) ht'
    · rw [h] at hk
      exact absurd (hk t) ht'
  · exact stops_after hp hf hc hji hj

/-- A thread that brings up a part is not about to stop it. -/
theorem stage_of_stops {h : Option ℕ} (hs : pc.stops p h = true) : pc.stage p ≠ .create ∧
    pc.stage p ≠ .bind := by
  have hstop : ∀ c : Stop, c.stage ≠ .create ∧ c.stage ≠ .bind := fun c => by cases c <;> simp [Stop.stage]
  cases pc with
  | stopVpn | stopLibs => exact ⟨by simp [Pc.stage], by simp [Pc.stage]⟩
  | stopTun2socks site c =>
    cases p with
    | tun2socks => exact hstop c
    | _ => exact ⟨by simp [Pc.stage], by simp [Pc.stage]⟩
  | stopCiadpi site c =>
    cases p with
    | ciadpi => exact hstop c
    | _ => exact ⟨by simp [Pc.stage], by simp [Pc.stage]⟩
  | undoCiadpi site c =>
    cases p with
    | ciadpi => exact hstop c
    | _ => exact ⟨by simp [Pc.stage], by simp [Pc.stage]⟩
  | stopProtect site c => cases p <;> cases c <;> simp [Pc.stage, StopServer.stage]
  | _ => cases hs

theorem stops_of_closing (h : pc.tunStage = .close) (hd : Option ℕ) : pc.stops p hd = true := by
  revert h
  cases pc with
  | stopVpn c => cases c <;> simp [Pc.tunStage, Pc.stops]
  | runVpn c => cases c <;> simp [Pc.tunStage]
  | _ => simp [Pc.tunStage]

theorem Wanted.after (h : Wanted s) (hp : PartsInv s) (hp' : PartsInv (after s i a pc)) (hl : Loaded env s)
    (hf : Fresh s) (hc : code env s i (s.threads i).pc o = some (a, pc)) (hg : TimelyStep s i a pc) :
    Wanted (after s i a pc) := by
  intro p t ht
  rw [after_parts] at ht
  have hself : (Service.after s i a pc).threads i = { pc := pc, object := (s.threads i).object } :=
    after_self (Nat.ne_of_lt (hf.lt (pc_ne_ended hc)))
  -- `isRunning` stays, except for the two statements that clear it
  have hrunning : ∀ k, (s.fields k).isRunning = true → (s.parts p).job t ≠ none →
      (∃ k, ((Service.after s i a pc).fields k).isRunning = true) ∨ WillStop (Service.after s i a pc) p := by
    intro k hk hold
    by_cases hk' : ((Service.after s i a pc).fields k).isRunning = true
    · exact .inl ⟨k, hk'⟩
    have hki : k = (s.threads i).object := by
      by_contra hne
      rw [after_fields_of_ne hne] at hk'
      exact hk' hk
    subst hki
    rw [after_fields_self] at hk'
    have ha : a = .setRunning false := by
      rcases onFields_isRunning a (s.view i) with he | he
      · rw [he] at hk'
        exact absurd hk hk'
      · rwa [eq_false_of_ne_true hk'] at he
    subst ha
    have hs := code_tun hc
    generalize hst : (s.threads i).pc.tunStage = st at hs
    generalize hst' : pc.tunStage = st' at hs
    cases hs with
    | idle hl => cases hl
    | closing hl => cases hl
    | giveUp =>
      rcases (hg.giveUp (pc_of_giveUp hst)).2 p t hold with ⟨k, hne, hk⟩ | hw
      · exact .inl ⟨k, by rw [after_fields_of_ne hne]; exact hk⟩
      · exact .inr (hw.after hp hp' hl hf hc hold ht)
    | clear => exact .inr ⟨i, by rw [hself]; exact stops_of_closing hst' _⟩
  rcases acquires_of_job ht with hold | ha
  · rcases h p t hold with ⟨k, hk⟩ | hw
    · exact hrunning k hk hold
    · exact .inr (hw.after hp hp' hl hf hc hold ht)
  · rcases hg.wanted p ha with hrun | ⟨j, hj⟩
    · refine .inl ⟨(s.threads i).object, ?_⟩
      rw [after_fields_self]
      cases a <;> first | exact hrun | cases ha
    · have hji : j ≠ i := fun he => by
        subst he
        rcases stage_of_acquires hc ha with hst | hst
        · exact (stage_of_stops hj).1 hst
        · exact (stage_of_stops hj).2 hst
      exact .inr (stops_after hp hf hc hji hj)

/-! ### Runs -/

/-- The invariant of the timely runs. -/
structure StopInv (s : State) : Prop where
  tun : TunInv s
  commanded : Commanded s
  parts : PartsInv s
  wanted : Wanted s

theorem stopInv_init : StopInv init := by
  refine ⟨⟨?_, ?_, ?_, ?_⟩, ⟨?_, ?_, ?_⟩, fun p => ⟨?_, ?_, ?_⟩, ?_⟩
  all_goals simp [init, Pc.tunStage, Pc.stage, Knows, Wanted]

theorem StopInv.run (h : StopInv s) (hf : Fresh s) (hl : Loaded env s)
    (hc : code env s i (s.threads i).pc o = some (a, pc)) (hg : TimelyStep s i a pc) :
    StopInv (after s i a pc) where
  tun := h.tun.after hf hc hg
  commanded := h.commanded.after hf hc
  parts := h.parts.after hf hc hg
  wanted := h.wanted.after h.parts (h.parts.after hf hc hg) hl hf hc hg

theorem Command.idle_pc (c : Command) : c.pc.tunStage = .out ∧ ∀ p, c.pc.stage p = .out := by
  cases c <;> exact ⟨rfl, fun _ => rfl⟩

theorem TunInv.deliver (h : TunInv s) (hmain : (s.threads 0).pc = .ended) (c : Command) (k : ℕ) :
    TunInv (delivered s c k) := by
  obtain ⟨hidle, -⟩ := c.idle_pc
  have hold : ∀ {j st}, st ≠ TunStage.out → ((delivered s c k).threads j).pc.tunStage = st →
      (delivered s c k).threads j = s.threads j := fun {j st} hst hj => by
    rcases delivered_threads s c k j with ⟨-, he⟩ | ⟨-, he⟩
    · rw [he, hidle] at hj
      exact absurd hj.symm hst
    · exact he
  refine ⟨fun t ht => ?_, fun j hj t hv => ?_, h.field_lt, fun j t hj => ?_⟩
  · rcases h.kept t ht with ⟨n, hn, hw⟩ | hj
    · refine .inl ⟨n, hn, hw.imp id fun hw => ?_⟩
      exact exists_delivered (P := fun x => x.object = n ∧ x.pc.tunStage.closes = true) hmain c k
        (fun x hx he => by rw [he] at hx; cases hx.2) hw
    · exact .inr (exists_delivered (P := fun x => x.pc.tunStage = .store (some t)) hmain c k
        (fun x hx he => by rw [he] at hx; cases hx) hj)
  · have he := hold (by simp) hj
    rw [State.view, he] at hv
    rw [he] at hj
    exact h.dropped j hj t hv
  · rw [hold (by simp) hj] at hj
    exact h.store_lt j t hj

theorem PartsInv.deliver (h : PartsInv s) (hmain : (s.threads 0).pc = .ended) (c : Command) (k : ℕ) :
    PartsInv (delivered s c k) := fun p => by
  have hσ : (fun j => ((delivered s c k).threads j).pc.stage p) = fun j => (s.threads j).pc.stage p := by
    funext j
    rcases delivered_threads s c k j with ⟨rfl, he⟩ | ⟨-, he⟩
    · rw [he, hmain, c.idle_pc.2]
      rfl
    · rw [he]
  rw [hσ]
  exact h p

theorem PartsInv.exit {t : ℕ} (h : PartsInv s) (hp : p ≠ .protect) (ht : (s.parts p).job t ≠ none) :
    PartsInv (s.setPart p ((s.parts p).exited t)) := fun q => by
  by_cases hqp : q = p
  · subst hqp
    simp only [State.setPart, Function.update_self]
    exact (h q).exit (fun j => server_stage_of_ne hp _) ht
  · simp only [State.setPart, Function.update_of_ne hqp]
    exact h q

theorem StopInv.deliver (h : StopInv s) (hmain : (s.threads 0).pc = .ended) (c : Command) :
    StopInv (delivered s c (if s.last = some .destroy then s.object + 1 else s.object)) := by
  generalize hk : (if s.last = some .destroy then s.object + 1 else s.object) = k
  refine ⟨h.tun.deliver hmain c k, hk ▸ h.commanded.deliver hmain c, fun p => ?_, fun p t ht => ?_⟩
  · exact h.parts.deliver hmain c k p
  · rcases h.wanted p t ht with hr | hw
    · exact .inl hr
    · exact .inr (exists_delivered (P := fun x => x.pc.stops p (s.parts p).handle = true) hmain c k
        (fun x hx he => by rw [he] at hx; cases hx) hw)

theorem StopInv.exit {t : ℕ} (h : StopInv s) (hp : p ≠ .protect) (ht : (s.parts p).job t ≠ none) :
    StopInv (s.setPart p ((s.parts p).exited t)) := by
  refine ⟨⟨h.tun.kept, h.tun.dropped, h.tun.field_lt, h.tun.store_lt⟩,
    ⟨h.commanded.main, h.commanded.starts, h.commanded.running⟩, h.parts.exit hp ht, fun q u hu => ?_⟩
  rcases h.wanted q u (exited_job hu) with hw | ⟨j, hj⟩
  · exact .inl hw
  · refine .inr ⟨j, ?_⟩
    rw [exited_handle]
    exact hj

theorem StopInv.step {l : Label} (h : StopInv s) (hf : Fresh s) (hl : Loaded env s) (hg : Timely env s l)
    (hs : step env s l = some s') : StopInv s' := by
  rcases step_cases hs with ⟨c, -, hmain, rfl⟩ | ⟨i, o, a, pc, rfl, hc, rfl⟩ | ⟨p, t, -, hp, ht, rfl⟩
  · exact h.deliver hmain c
  · exact h.run hf hl hc (hg a pc hc)
  · exact h.exit hp ht

/-- **A stop is final in a timely run.** Once the last command was a stop and every thread has ended,
no interface is open and nothing of the engine runs. -/
theorem stop_is_final (env : Env) (s : State) (h : Reachable (step env) init (Timely env) s)
    (hs : Stopped s) : Released s := by
  have hinv : StopInv s := h.invariant stopInv_init fun _ _ _ hr hi hg hs =>
    hi.step (fresh_of_reachable hr) (loaded_of_reachable hr) hg hs
  obtain ⟨hlast, hended⟩ := hs
  have hidle : ∀ k, (s.fields k).isRunning = false := fun k => by
    by_contra hk
    obtain ⟨-, ⟨id, hst⟩ | hst | hst⟩ := hinv.commanded.running k (by simpa using hk)
    · rcases hlast with hl | hl <;> rw [hl] at hst <;> cases hst
    · rw [hended 0] at hst
      cases hst
    · rw [hended 0] at hst
      cases hst
  refine ⟨fun t => ?_, fun p t => ?_⟩
  · by_contra ht
    rcases hinv.tun.kept t (by simpa using ht) with ⟨k, -, hk | ⟨j, -, hj⟩⟩ | ⟨j, hj⟩
    · rw [hidle k] at hk
      cases hk
    · rw [hended j] at hj
      cases hj
    · rw [hended j] at hj
      cases hj
  · by_contra ht
    rcases hinv.wanted p t ht with ⟨k, hk⟩ | ⟨j, hj⟩
    · rw [hidle k] at hk
      cases hk
    · rw [hended j] at hj
      cases hj

/-! ### Two runs -/

theorem Fresh.stopped (hf : Fresh s) (hlast : s.last = some .stop)
    (h : ((List.range s.spawned).all fun i => (s.threads i).pc = .ended) = true) : Stopped s := by
  refine ⟨.inl hlast, fun i => ?_⟩
  by_cases hi : i < s.spawned
  · simpa using List.all_eq_true.mp h i (List.mem_range.mpr hi)
  · exact hf.2 i (by omega)

/-- A check that is enough for `Timely`: no other thread is in the way, and the service is running. -/
def timely (env : Env) (s : State) : Label → Bool
  | .run i o =>
    ((List.range s.spawned).all fun j => j = i || ([Part.protect, .ciadpi, .tun2socks].all fun p =>
      (s.threads j).pc.stage p = .out) && (s.threads j).pc.tunStage ≠ .drop) &&
    match code env s i (s.threads i).pc o with
    | some (a, _) =>
      ((a.acquires .protect || a.acquires .ciadpi || a.acquires .tun2socks) → (s.view i).isRunning) &&
      match (s.threads i).pc with
      | .runVpn (.store _) => (s.view i).vpnInterface = none && (s.view i).isRunning
      | .runVpn .giveUp => false
      | _ => true
    | none => true
  | _ => true

theorem timely_of_check {l : Label} (hf : Fresh s) (h : timely env s l = true) : Timely env s l := by
  cases l with
  | run i o =>
    intro a pc hc
    simp only [timely, hc, Bool.and_eq_true] at h
    obtain ⟨hothers, hacq, hpc⟩ := h
    have hother : ∀ j, j ≠ i → (∀ p, (s.threads j).pc.stage p = .out) ∧
        (s.threads j).pc.tunStage ≠ .drop := by
      intro j hj
      by_cases hlt : j < s.spawned
      · have := List.all_eq_true.mp hothers j (List.mem_range.mpr hlt)
        simp only [hj, decide_false, Bool.false_or, List.all_cons, List.all_nil, Bool.and_true,
          Bool.and_eq_true, decide_eq_true_eq] at this
        exact ⟨fun p => by cases p <;> simp only [this], this.2⟩
      · rw [hf.2 j (by omega)]
        exact ⟨fun _ => rfl, by simp [Pc.tunStage]⟩
    refine ⟨fun p _ _ j hj => (hother j hj).1 p, fun p ha => .inl ?_, fun t ht => ?_, fun hgu => ?_⟩
    · simp only [decide_eq_true_eq] at hacq
      exact hacq (by cases p <;> simp [ha])
    · rw [ht] at hpc
      simp only [Bool.and_eq_true, decide_eq_true_eq] at hpc
      refine ⟨fun u hu => ?_, fun _ => ⟨fun j _ => ?_, .inl hpc.2⟩⟩
      · rw [hpc.1] at hu
        cases hu
      · by_cases hj : j = i
        · rw [hj, ht]
          simp [Pc.tunStage]
        · exact (hother j hj).2
    · rw [hgu] at hpc
      cases hpc
  | _ => trivial

theorem stop_is_final_startStop :
    ∃ s, Reachable (step deviceEnv) init (Timely deviceEnv) s ∧ Stopped s ∧ s.established = 1 ∧
      Released s := by
  obtain ⟨s, hs, hf⟩ := reachable_of_run (step deviceEnv) init (c := timely deviceEnv)
    (fun s l hr => timely_of_check (fresh_of_reachable hr))
    (startLabels none ++ sessionLabels 1 ++ stopLabels ++
      [.run 4 .ok, .run 4 .ok, .run 4 .ok, .exit .tun2socks 0, .run 4 .ok, .run 4 .ok, .run 4 .ok, .run 4 .ok,
        .exit .ciadpi 0] ++ List.replicate 5 (.run 4 .ok) ++
      [.run 1 .ok, .run 1 .ok, .run 2 .ok, .run 3 .ok, .run 3 .ok])
    (fun s => (s.last, s.established, (List.range s.spawned).all fun i => (s.threads i).pc = .ended))
    (b := (some .stop, 1, true)) (by decide +kernel)
  simp only [Prod.mk.injEq] at hf
  have hst := (fresh_of_reachable hs).stopped hf.1 hf.2.2
  exact ⟨s, hs, hst, hf.2.1, stop_is_final deviceEnv s hs hst⟩

/-- A stop that is delivered before `runVpn` has established its interface finds nothing to close or to
stop. The session then establishes the interface, starts the engine and ends, and both stay. -/
theorem stop_missed : ¬ ∀ (env : Env) (s : State), Reachable (step env) init anyStep s → Stopped s →
    Released s := by
  intro h
  obtain ⟨s, hs, hf⟩ := reachable_of_run (step deviceEnv) init anyStep_of_true
    (startLabels none ++ stopLabels ++ List.replicate 6 (.run 2 .ok) ++ sessionLabels 1 ++
      [.run 1 .ok, .run 1 .ok, .run 3 .ok, .run 4 .ok, .run 4 .ok])
    (fun s => (s.last, ((List.range s.spawned).all fun i => (s.threads i).pc = .ended), (s.tuns 0).isOpen))
    (b := (some .stop, true, true)) (by decide +kernel)
  simp only [Prod.mk.injEq] at hf
  have hr := h deviceEnv s hs ((fresh_of_reachable hs).stopped hf.1 hf.2.1)
  rw [hr.1 0] at hf
  cases hf.2.2

end BypassVpn.Service
