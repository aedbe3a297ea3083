import BypassVpn.Service.Asked

/-!
# Runs with the engine that was asked for

The threads take turns with their starts, stops and restarts. Then the thread that is busy knows all it
needs, and when none is busy the engine is down, or is the one that was asked for.

* `AskedInv`; `AskedInv.run`, `AskedInv.deliver`, `AskedInv.exit`: one step.
* **`engine_asked`**: in every run in turns the engine that runs is the engine that was asked for.
* `engine_not_asked`: a start with another preset while the service is running.
-/

namespace BypassVpn.Service

open Transition

variable {env : Env} {s s' : State} {i j : ℕ} {o : Outcome} {a : Act} {pc pc' q : Pc} {p : Part}

/-! ### The invariant -/

/-- `startVpn` has found that the service is not running. -/
def OnStart.waits : OnStart → Bool
  | .await | .forget | .setRunning => true
  | _ => false

/-- The session is not started yet. -/
def OnStart.prepares : OnStart → Bool
  | .keep _ => false
  | _ => true

/-- What holds in every state of a run in turns. -/
structure AskedInv (env : Env) (s : State) : Prop where
  main : (s.threads 0).pc = .ended ∨ (∃ c, (s.threads 0).pc = .onStart c) ∨
    ∃ c, (s.threads 0).pc = .stopVpn c ∧ ¬ Started s
  waiting : ∀ c, (s.threads 0).pc = .onStart c → c.waits = true → (service s).isRunning = false
  alone : ∀ i j, (s.threads i).pc.busy = true → (s.threads j).pc.busy = true → i = j
  parts : PartsInv s
  told : ∀ i, (s.threads i).pc.busy = true → Told env s i (s.threads i).pc
  rest : (∀ i, (s.threads i).pc.busy = false) → Rest env s
  asked : Firm s → (service s).isRunning = true ∨ ¬ Started s ∨
    ∃ c, (s.threads 0).pc = .onStart c ∧ c.prepares = true
  libs : Firm s → env.nativeLibsLoaded = true
  bare : env.nativeLibsLoaded = false → Down s .ciadpi ∧ Down s .tun2socks

theorem busy_of_stage (h : pc.stage p ≠ .out) : pc.busy = true := by
  cases pc with
  | ended | onStart | stopVpn | runVpn | asn | monitor | restart | stopLibs => exact absurd rfl h
  | _ => rfl

theorem Rest.mono (h : Rest env s) (fr : Frame s s') (hfirm : Firm s' → Firm s)
    (hparts : ∀ p, s'.parts p = s.parts p) : Rest env s' := by
  rw [Rest] at h ⊢
  rw [fr.running]
  by_cases hr : (service s).isRunning = true
  · rw [if_pos hr] at h ⊢
    intro hf
    obtain ⟨ht, hask⟩ := h (hfirm hf)
    exact ⟨fr.tunHeld ht, fr.fetched hr hask.config, fr.proxyAsked hr hask.config (hparts _) hask.proxy,
      fr.bridgeAsked (hparts _) hask.bridge⟩
  · rw [if_neg hr] at h ⊢
    exact ⟨h.1.of_eq (hparts _), h.2.of_eq (hparts _)⟩

/-! ### The main thread -/

theorem AskedInv.main_after (h : AskedInv env s) (hf : Fresh s)
    (hc : code env s i (s.threads i).pc o = some (a, pc)) :
    ((after s i a pc).threads 0).pc = .ended ∨ (∃ c, ((after s i a pc).threads 0).pc = .onStart c) ∨
    ∃ c, ((after s i a pc).threads 0).pc = .stopVpn c ∧ ¬ Started (after s i a pc) := by
  rcases after_cases hf (pc_ne_ended hc) a pc 0 with ⟨rfl, he⟩ | ⟨q, -, h0, -⟩ | ⟨-, he⟩
  · rw [he]
    rcases h.main with h0 | ⟨c, h0⟩ | ⟨c, h0, hst⟩
    · exact absurd h0 (pc_ne_ended hc)
    · rw [h0] at hc
      revert hc
      change OnStart.code s 0 c o = _ → _
      fun_cases OnStart.code s 0 c o <;> intro h <;> cases h <;>
        first | exact .inl rfl | exact .inr (.inl ⟨_, rfl⟩)
    · rw [h0] at hc
      revert hc
      change StopVpn.code s 0 c o = _ → _
      fun_cases StopVpn.code s 0 c o <;> intro h <;> cases h <;>
        first | exact .inl rfl | exact .inr (.inr ⟨_, rfl, hst⟩)
  · exact absurd hf.1 (by omega)
  · rw [he]
    exact h.main

/-- A service that is running was so before, or is being started. -/
theorem running_after (hc : code env s i (s.threads i).pc o = some (a, pc))
    (hr : (service (after s i a pc)).isRunning = true) :
    (service s).isRunning = true ∨ (s.threads i).pc = .onStart .setRunning := by
  rcases isRunning_after hc hr with ⟨h, -⟩ | ⟨h, -⟩
  · exact .inl h
  · exact .inr h

theorem AskedInv.waiting_after (h : AskedInv env s) (hcmd : Commanded s) (hf : Fresh s)
    (hc : code env s i (s.threads i).pc o = some (a, pc)) (c : OnStart)
    (h0 : ((after s i a pc).threads 0).pc = .onStart c) (hw : c.waits = true) :
    (service (after s i a pc)).isRunning = false := by
  by_contra hr
  have hr' := running_after hc (eq_true_of_ne_false hr)
  rcases after_cases hf (pc_ne_ended hc) a pc 0 with ⟨rfl, he⟩ | ⟨q, -, hsp, -⟩ | ⟨hne, he⟩
  · rw [he] at h0
    change pc = _ at h0
    subst h0
    obtain ⟨d, hd⟩ := code_onStart hc
    have hview : s.view 0 = service s := by
      rw [State.view, hcmd.main (pc_ne_ended hc)]
      rfl
    have hwait := h.waiting d hd
    rw [hd] at hc hr'
    revert hc
    change OnStart.code s 0 d o = _ → _
    fun_cases OnStart.code s 0 d o <;> intro h <;> cases h <;> cases hw
    · simp_all
    · simp_all [OnStart.waits]
    · simp_all [OnStart.waits]
  · exact absurd hf.1 (by omega)
  · rw [he] at h0
    rcases hr' with hr' | hr'
    · rw [h.waiting c h0 hw] at hr'
      cases hr'
    · exact absurd (hcmd.starts i _ hr').1 (Ne.symm hne)

/-! ### Whose turn it is -/

/-- The threads after a statement of thread `i`, and the one it has started. -/
theorem busy_after (hf : Fresh s) (hc : code env s i (s.threads i).pc o = some (a, pc))
    (hj : ((after s i a pc).threads j).pc.busy = true) :
    j = i ∧ pc.busy = true ∨ (∃ q, a.spawns = some q ∧ q.busy = true ∧ j = s.spawned) ∨
    j ≠ i ∧ (s.threads j).pc.busy = true := by
  rcases after_cases hf (pc_ne_ended hc) a pc j with ⟨hji, he⟩ | ⟨q, hq, hjs, he⟩ | ⟨hji, he⟩
  · rw [he] at hj
    exact .inl ⟨hji, hj⟩
  · rw [he] at hj
    exact .inr (.inl ⟨q, hq, hj, hjs⟩)
  · rw [he] at hj
    exact .inr (.inr ⟨hji, hj⟩)

/-- The statements of a thread that is not busy and stays so leave the service to the busy one. -/
theorem calm_frame (hcmd : Commanded s) (hb : (s.threads i).pc.busy = false) (hb' : pc.busy = false)
    (hc : code env s i (s.threads i).pc o = some (a, pc)) (hg : InTurn s i o pc) :
    Frame s (after s i a pc) ∧ (∀ p, (after s i a pc).parts p = s.parts p) ∧
    ∀ q, a.spawns = some q → q.busy = false := by
  rcases code_calm hb hc with ⟨ha, -⟩ | ⟨id, hpc, rfl, rfl⟩ | ⟨hpc, rfl, rfl⟩ | ⟨-, -, rfl⟩
  · refine ⟨(isLight_frame ha).1, (isLight_frame ha).2, fun q hq => ?_⟩
    cases a with
    | spawn r =>
      cases hq
      simp only [Act.isLight, Bool.and_eq_true, Bool.not_eq_true'] at ha
      exact ha.2
    | _ => cases hq
  · obtain ⟨rfl, -⟩ := hcmd.starts i _ hpc
    have hobj := hcmd.main (pc_ne_ended hc)
    have hview : s.view 0 = service s := by
      rw [State.view, hobj]
      rfl
    have hsv : service (after s 0 (.setPreset id) (.onStart .loadConfig)) = _ := service_after hobj
    refine ⟨⟨rfl, rfl, rfl, ?_, ?_, ?_, fun hr => ?_, fun _ _ => ?_⟩, fun _ =>
      rfl, fun q hq => by cases hq⟩ <;>
      rw [hsv]
    · rfl
    · rfl
    · rfl
    · rw [← hview] at hr ⊢
      exact hg.preset id hpc hr
    · rfl
  · obtain ⟨rfl, -⟩ := hcmd.starts i _ hpc
    have hobj := hcmd.main (pc_ne_ended hc)
    have hview : s.view 0 = service s := by
      rw [State.view, hobj]
      rfl
    have hsv : service (after s 0 (.setConfig (loadPreset (s.view 0).activePresetId)) (.onStart .test)) = _ :=
      service_after hobj
    refine ⟨⟨rfl, rfl, rfl, ?_, ?_, ?_, fun _ => ?_, fun _ hft => ?_⟩, fun _ =>
      rfl, fun q hq => by cases hq⟩ <;>
      rw [hsv]
    · rfl
    · rfl
    · rfl
    · rfl
    · rw [hview]
      exact hft.symm
  · cases hb'

/-- The thread that begins a start, a stop or a restart has been told enough. -/
theorem AskedInv.told_enter (h : AskedInv env s) (hcmd : Commanded s) (hf : Fresh s)
    (hlt : s.session < s.spawned)
    (hfits : ∀ j, (s.threads j).pc.fits = true) (hb : (s.threads i).pc.busy = false) (hb' : pc.busy = true)
    (hc : code env s i (s.threads i).pc o = some (a, pc)) (hg : InTurn s i o pc) :
    Told env (after s i a pc) i pc ∧ ∀ q, a.spawns = some q → q.busy = false := by
  have hrest := h.rest (hg.turn hb hb')
  have hobj' := object_after hf hc
  -- a service that is running is the current one
  have hserves : (s.view i).isRunning = true → Serves s i := fun hr => by
    have hobj := (hcmd.running _ hr).1
    refine ⟨hobj, ?_⟩
    rw [service, ← hobj]
    exact hr
  rcases code_calm hb hc with ⟨ha, henter⟩ | ⟨id, -, -, rfl⟩ | ⟨-, -, rfl⟩ | ⟨hpc, rfl, rfl⟩
  · obtain ⟨fr, hparts⟩ : Frame s (after s i a pc) ∧ ∀ p, (after s i a pc).parts p = s.parts p :=
      isLight_frame ha
    refine ⟨?_, fun q hq => ?_⟩
    · rcases henter hb' with ⟨hpc, rfl, hr⟩ | ⟨site, id, rfl⟩
      · rw [Told, if_pos rfl, fr.session]
        exact ⟨fr.serves hobj' (hserves hr), hg.stop hpc hr⟩
      · have hsite : site.restarts = true := by
          rcases code_keeps (hfits i) hc with he | he
          · cases he
          · exact he.2
        have hs := hserves (hg.restart hb hsite)
        rw [Rest, if_pos hs.2] at hrest
        refine ⟨fr.caller hobj' (firm_of_after hf hlt hc fun h => (by cases h)) ?_, trivial⟩
        cases site with
        | asn | monitor => exact ⟨hs, fun hfirm => (hrest hfirm).1⟩
        | _ => cases hsite
    · cases a with
      | spawn r =>
        cases hq
        simp only [Act.isLight, Bool.and_eq_true, Bool.not_eq_true'] at ha
        exact ha.2
      | _ => cases hq
  · cases hb'
  · cases hb'
  · obtain ⟨rfl, -⟩ := hcmd.starts i _ hpc
    have hobj := hcmd.main (pc_ne_ended hc)
    rw [Rest, if_neg (by rw [h.waiting _ hpc rfl]; simp)] at hrest
    refine ⟨⟨⟨hobj'.trans hobj, ?_⟩, hrest.1, hrest.2⟩, fun q hq => by cases hq⟩
    rw [service_after hobj]
    rfl

/-- At most one thread is busy, and it has been told enough; what holds when there is none. -/
structure Turns (env : Env) (s : State) : Prop where
  alone : ∀ i j, (s.threads i).pc.busy = true → (s.threads j).pc.busy = true → i = j
  told : ∀ i, (s.threads i).pc.busy = true → Told env s i (s.threads i).pc
  rest : (∀ i, (s.threads i).pc.busy = false) → Rest env s

/-- No thread is busy but `j`. -/
theorem Turns.of_only (hone : ∀ k, (s.threads k).pc.busy = true → k = j)
    (htold : (s.threads j).pc.busy = true → Told env s j (s.threads j).pc)
    (hrest : (s.threads j).pc.busy = false → Rest env s) : Turns env s where
  alone k l hk hl := (hone k hk).trans (hone l hl).symm
  told k hk := by
    obtain rfl := hone k hk
    exact htold hk
  rest hall := hrest (hall j)

/-- The busy thread goes on, or hands over to the one it has started. -/
theorem AskedInv.turns_busy (h : AskedInv env s) (hf : Fresh s) (hlt : s.session < s.spawned)
    (hfits : (s.threads i).pc.fits = true) (hc : code env s i (s.threads i).pc o = some (a, pc))
    (hg : InTurn s i o pc) (hb : (s.threads i).pc.busy = true) : Turns env (after s i a pc) := by
  have hself := @after_self s i a pc (Nat.ne_of_lt (hf.lt (pc_ne_ended hc)))
  have hothers : ∀ j, j ≠ i → (s.threads j).pc.busy = false := fun j hj => by
    by_contra hbj
    exact hj (h.alone j i (eq_true_of_ne_false hbj) hb)
  obtain ⟨hgo, hspawn⟩ := goes_run hf hlt hc h.parts h.libs h.bare hfits hb (h.told i hb) hg
  cases hsp : a.spawns with
  | none =>
    have hone : ∀ j, ((after s i a pc).threads j).pc.busy = true → j = i := fun j hj => by
      rcases busy_after hf hc hj with ⟨hji, -⟩ | ⟨q, hq, -⟩ | ⟨hji, hbj⟩
      · exact hji
      · rw [hsp] at hq
        cases hq
      · rw [hothers j hji] at hbj
        cases hbj
    refine .of_only hone ?_ ?_ <;> rw [hself]
    · exact (hgo hsp).1
    · exact (hgo hsp).2
  | some q =>
    obtain ⟨hnb, htold⟩ := hspawn q hsp
    have hnew := @after_spawned s i a pc q (Nat.ne_of_lt (hf.lt (pc_ne_ended hc))).symm hsp
    have hone : ∀ j, ((after s i a pc).threads j).pc.busy = true → j = s.spawned := fun j hj => by
      rcases busy_after hf hc hj with ⟨-, hbj⟩ | ⟨-, -, -, hjs⟩ | ⟨hji, hbj⟩
      · rw [hnb] at hbj
        cases hbj
      · exact hjs
      · rw [hothers j hji] at hbj
        cases hbj
    refine .of_only hone ?_ ?_ <;> rw [hnew]
    · exact fun _ => htold
    · intro hidle
      rcases code_spawns hc hsp with ⟨-, rfl, -⟩ | ⟨-, rfl, -⟩ | ⟨b, hpc, -⟩ | ⟨b, hpc, -⟩
      · cases hidle
      · cases hidle
      · rw [hpc] at hb
        cases hb
      · rw [hpc] at hb
        cases hb

/-- A start, a stop or a restart begins. -/
theorem AskedInv.turns_enter (h : AskedInv env s) (hcmd : Commanded s) (hf : Fresh s)
    (hlt : s.session < s.spawned) (hfits : ∀ j, (s.threads j).pc.fits = true)
    (hc : code env s i (s.threads i).pc o = some (a, pc)) (hg : InTurn s i o pc)
    (hb : (s.threads i).pc.busy = false) (hb' : pc.busy = true) : Turns env (after s i a pc) := by
  have hself := @after_self s i a pc (Nat.ne_of_lt (hf.lt (pc_ne_ended hc)))
  have hothers := hg.turn hb hb'
  obtain ⟨htold, hspawn⟩ := h.told_enter hcmd hf hlt hfits hb hb' hc hg
  have hone : ∀ j, ((after s i a pc).threads j).pc.busy = true → j = i := fun j hj => by
    rcases busy_after hf hc hj with ⟨hji, -⟩ | ⟨q, hq, hbq, -⟩ | ⟨-, hbj⟩
    · exact hji
    · rw [hspawn q hq] at hbq
      cases hbq
    · rw [hothers j] at hbj
      cases hbj
  refine .of_only hone ?_ ?_ <;> rw [hself]
  · exact fun _ => htold
  · intro hidle
    rw [hb'] at hidle
    cases hidle

/-- A statement of a thread that is not busy and stays so. -/
theorem AskedInv.turns_calm (h : AskedInv env s) (hcmd : Commanded s) (hf : Fresh s)
    (hlt : s.session < s.spawned) (hfits : ∀ j, (s.threads j).pc.fits = true)
    (hc : code env s i (s.threads i).pc o = some (a, pc)) (hg : InTurn s i o pc)
    (hb : (s.threads i).pc.busy = false) (hb' : pc.busy = false) : Turns env (after s i a pc) := by
  obtain ⟨fr, hparts, hspawn⟩ := calm_frame hcmd hb hb' hc hg
  have hfirm : Firm (after s i a pc) → Firm s := fun hfirm => by
    rcases (firm_after hf hlt hc hfirm).2 with ⟨rfl, hr⟩ | ⟨-, hold⟩
    · exact code_result hb hc hr
    · exact hold
  have hold : ∀ j, ((after s i a pc).threads j).pc.busy = true → (s.threads j).pc.busy = true ∧
      (after s i a pc).threads j = s.threads j := fun j hj => by
    rcases busy_after hf hc hj with ⟨-, hbj⟩ | ⟨q, hq, hbq, -⟩ | ⟨hji, hbj⟩
    · rw [hb'] at hbj
      cases hbj
    · rw [hspawn q hq] at hbq
      cases hbq
    · exact ⟨hbj, after_same hf hji fun he => by rw [he] at hbj; cases hbj⟩
  refine ⟨fun j k hj hk => h.alone j k (hold j hj).1 (hold k hk).1, fun j hj => ?_, fun hall => ?_⟩
  · obtain ⟨hbj, he⟩ := hold j hj
    rw [he]
    exact (h.told j hbj).mono (hfits j) fr (by rw [he]) hfirm hparts
  · refine (h.rest fun j => ?_).mono fr hfirm hparts
    by_contra hbj
    have hji : j ≠ i := fun he => by
      subst he
      exact hbj hb
    have := hall j
    rw [after_same hf hji fun he => hbj (by rw [he]; rfl)] at this
    exact hbj this

theorem AskedInv.turn_after (h : AskedInv env s) (hcmd : Commanded s) (hf : Fresh s)
    (hlt : s.session < s.spawned) (hfits : ∀ j, (s.threads j).pc.fits = true)
    (hc : code env s i (s.threads i).pc o = some (a, pc)) (hg : InTurn s i o pc) :
    Turns env (after s i a pc) := by
  by_cases hb : (s.threads i).pc.busy = true
  · exact h.turns_busy hf hlt (hfits i) hc hg hb
  by_cases hb' : pc.busy = true
  · exact h.turns_enter hcmd hf hlt hfits hc hg (eq_false_of_ne_true hb) hb'
  · exact h.turns_calm hcmd hf hlt hfits hc hg (eq_false_of_ne_true hb) (eq_false_of_ne_true hb')

theorem AskedInv.parts_after (h : AskedInv env s) (hf : Fresh s)
    (hc : code env s i (s.threads i).pc o = some (a, pc)) (hg : InTurn s i o pc) :
    PartsInv (after s i a pc) :=
  fun p => by
    rw [after_stages p hf hc]
    refine (h.parts p).step (code_part p hc) fun _ hin j hji => ?_
    by_contra hj
    have hbj := busy_of_stage hj
    by_cases hb : (s.threads i).pc.busy = true
    · exact hji (h.alone j i hbj hb)
    · rw [hg.turn (eq_false_of_ne_true hb) (busy_of_stage hin) j] at hbj
      cases hbj

/-- Without the native libraries the engine stays as it is. -/
theorem bare_after (hl : Loaded env s) (hc : code env s i (s.threads i).pc o = some (a, pc))
    (hbare : env.nativeLibsLoaded = false) : (after s i a pc).parts p = s.parts p := by
  have hpast : (s.threads i).pc.pastLibs = false := by
    by_contra hp
    rw [hl.past i (eq_true_of_ne_false hp)] at hbare
    cases hbare
  rw [after_parts]
  revert hc hpast
  cases (s.threads i).pc with
  | ended => intro h; cases h
  | onStart c => exact fun h _ => (OnStart.code_part h).1
  | stopVpn c => exact fun h _ => (StopVpn.code_part h).1
  | runVpn c => exact fun h _ => (RunVpn.code_part h).1
  | asn c => exact fun h _ => (AsnAutoDetect.code_part h).1
  | monitor w c => exact fun h _ => (PresetMonitor.code_part h).1
  | restart site c => exact fun h _ => (Restart.code_part h).1
  | stopLibs site => exact fun h _ => (stopLibs_part h).1
  | start site b c =>
    cases c with
    | libs =>
      intro h _
      cases o <;> simp only [code, Start.code, reduceCtorEq] at h
      split at h <;> cases h <;> rfl
    | _ => exact fun _ hp => (by cases hp)
  | _ => exact fun _ hp => (by cases hp)

theorem Told.running {b : StartArgs} {site : Site} {c : Start} (h : Told env s i (.start site b c))
    (hfit : (Pc.start site b c).fits = true) : (service s).isRunning = true :=
  (h.1.serves (by simpa [Pc.fits] using hfit)).2

/-- The result of a start comes from inside `ProxyEngine.start`. -/
theorem code_result_start (hb : pc.busy = true) (h : code env s i pc o = some (a, pc'))
    (hr : pc'.result = some true) : a.inEngine = true ∧ pc.pastLibs = true ∧ ∃ site b c, pc =
    .start site b c := by
  cases pc with
  | ended | asn | monitor => cases hb
  | start site b c =>
    refine ⟨(code_inEngine rfl h).1, ?_, site, b, c, rfl⟩
    cases c with
    | libs =>
      cases o <;> simp only [code, Start.code, reduceCtorEq] at h
      split at h <;> cases h
      · cases hr
      · cases (site.result_after.2.2 false hr).2
    | _ => rfl
  | onStart c =>
    revert h
    change OnStart.code s i c o = _ → _
    fun_cases OnStart.code s i c o <;> intro h <;> cases h <;> cases hr
  | stopVpn c =>
    revert h
    change StopVpn.code s i c o = _ → _
    fun_cases StopVpn.code s i c o <;> intro h <;> cases h <;> cases hr
  | runVpn c =>
    revert h
    change RunVpn.code env s i c o = _ → _
    fun_cases RunVpn.code env s i c o <;> intro h <;> cases h <;> cases hb <;> cases hr
  | restart site c =>
    revert h
    change Restart.code s i site c o = _ → _
    fun_cases Restart.code s i site c o <;> intro h <;> cases h <;>
      first | (rw [site.result_after.1] at hr; cases hr) | cases hr
  | stopLibs site =>
    revert h
    change stopLibs env site o = _ → _
    fun_cases stopLibs env site o <;> intro h <;> cases h <;>
      first | (rw [site.result_after.2.1] at hr; cases hr) | cases hr
  | stopTun2socks site c =>
    revert h
    change Stop.code s _ _ _ c o = _ → _
    fun_cases Stop.code s .tun2socks (.stopTun2socks site) (.stopCiadpi site .test) c o <;> intro h <;>
      cases h <;> cases hr
  | stopCiadpi site c =>
    revert h
    change Stop.code s _ _ _ c o = _ → _
    fun_cases Stop.code s .ciadpi (.stopCiadpi site) (.stopProtect site .clear) c o <;> intro h <;>
      cases h <;> cases hr
  | stopProtect site c =>
    revert h
    change StopServer.code _ _ c o = _ → _
    fun_cases StopServer.code (.stopProtect site) site.stopped c o <;> intro h <;> cases h <;>
      first | (rw [site.result_after.2.1] at hr; cases hr) | cases hr
  | undoCiadpi site c =>
    revert h
    change Stop.code s _ _ _ c o = _ → _
    fun_cases Stop.code s .ciadpi (.undoCiadpi site) (site.started false) c o <;> intro h <;> cases h <;>
      first | cases (site.result_after.2.2 false hr).2 | cases hr
  | undoProtect site b c =>
    revert h
    change StopServer.code _ _ c o = _ → _
    fun_cases StopServer.code (.undoProtect site b) (.start site b (.ciadpiTest false)) c o <;> intro h <;>
      cases h <;> cases hr

/-- A start returns true: the native libraries are there, and the service is running. -/
theorem AskedInv.started_after (h : AskedInv env s) (hfits : ∀ j, (s.threads j).pc.fits = true)
    (hc : code env s i (s.threads i).pc o = some (a, pc)) (hb : (s.threads i).pc.busy = true)
    (hr : pc.result = some true) :
    (s.threads i).pc.pastLibs = true ∧ (service (after s i a pc)).isRunning = true := by
  obtain ⟨ha, hp, site, b, c, hpc⟩ := code_result_start hb hc hr
  refine ⟨hp, ?_⟩
  have htold := h.told _ hb
  rw [service_after_of_inEngine ha]
  rw [hpc] at htold
  exact htold.running (by rw [← hpc]; exact hfits _)

theorem AskedInv.libs_after (h : AskedInv env s) (hl : Loaded env s) (hf : Fresh s)
    (hlt : s.session < s.spawned)
    (hfits : ∀ j, (s.threads j).pc.fits = true) (hc : code env s i (s.threads i).pc o = some (a, pc))
    (hfirm : Firm (after s i a pc)) : env.nativeLibsLoaded = true := by
  rcases (firm_after hf hlt hc hfirm).2 with ⟨rfl, hr⟩ | ⟨-, hold⟩
  · by_cases hb : (s.threads s.session).pc.busy = true
    · exact hl.past _ (h.started_after hfits hc hb hr).1
    · exact h.libs (code_result (eq_false_of_ne_true hb) hc hr)
  · exact h.libs hold

theorem clears_running (hc : code env s i (s.threads i).pc o = some (a, pc))
    (hr : (service s).isRunning = true) (hr' : (service (after s i a pc)).isRunning = false) :
    (s.threads i).pc = .runVpn .giveUp ∨ (s.threads i).pc = .stopVpn .clearRunning := by
  have ha : a = .setRunning false := by
    rcases service_after_cases s i a pc with he | ⟨-, he⟩
    · rw [he, hr] at hr'
      cases hr'
    · rw [he] at hr'
      rcases onFields_isRunning a (service s) with hf | hf
      · rw [hf, hr] at hr'
        cases hr'
      · rwa [hr'] at hf
  subst ha
  have hs := code_tun hc
  generalize hst : (s.threads i).pc.tunStage = st at hs
  generalize pc.tunStage = st' at hs
  cases hs with
  | idle hl => cases hl
  | closing hl => cases hl
  | giveUp => exact .inl (pc_of_giveUp hst)
  | clear => exact .inr (pc_of_clear hst)

/-- While the session has the result of its start the service is running, or a stop has been delivered.
-/
theorem AskedInv.asked_after (h : AskedInv env s) (hcmd : Commanded s) (hf : Fresh s)
    (hlt : s.session < s.spawned)
    (hfits : ∀ j, (s.threads j).pc.fits = true) (hc : code env s i (s.threads i).pc o = some (a, pc))
    (hfirm : Firm (after s i a pc)) :
    (service (after s i a pc)).isRunning = true ∨ ¬ Started (after s i a pc) ∨
      ∃ c, ((after s i a pc).threads 0).pc = .onStart c ∧ c.prepares = true := by
  have hne := pc_ne_ended hc
  have hmain : i ≠ 0 → (∃ c, (s.threads 0).pc = .onStart c ∧ c.prepares = true) →
      ∃ c, ((after s i a pc).threads 0).pc = .onStart c ∧ c.prepares = true := fun hi0 ⟨c, h0, hp⟩ =>
    ⟨c, by rw [after_same hf (Ne.symm hi0) (by rw [h0]; simp)]; exact h0, hp⟩
  obtain ⟨hs, ⟨rfl, hr⟩ | ⟨hi, hold⟩⟩ := firm_after hf hlt hc hfirm
  · by_cases hb : (s.threads s.session).pc.busy = true
    · exact .inl (h.started_after hfits hc hb hr).2
    · -- the session goes on to its loop, and leaves the service as it is
      have hres := code_result (eq_false_of_ne_true hb) hc hr
      have hi0 : s.session ≠ 0 := fun he => by
        rw [he] at hres
        rcases h.main with h0 | ⟨c, h0⟩ | ⟨c, h0, -⟩ <;> rw [h0] at hres <;> cases hres
      rcases code_calm (eq_false_of_ne_true hb) hc with ⟨ha, -⟩ | ⟨id, -, -, rfl⟩ | ⟨-, -, rfl⟩ | ⟨-, -, rfl⟩
      · have fr : Frame s (after s s.session a pc) := (isLight_frame ha).1
        rw [fr.running]
        exact (h.asked hres).imp id fun h => h.imp id (hmain hi0)
      · cases hr
      · cases hr
      · cases hr
  · rcases h.asked hold with hrun | hst | hprep
    · by_cases hrun' : (service (after s i a pc)).isRunning = true
      · exact .inl hrun'
      · -- `isRunning` has been cleared: by a stop, since the session has not given up
        rcases clears_running hc hrun (eq_false_of_ne_true hrun') with hpc | hpc
        · have := h.told i (by rw [hpc]; rfl)
          rw [hpc] at this
          exact absurd this.2.1 hi
        · have := h.told i (by rw [hpc]; rfl)
          rw [hpc, Told, if_pos rfl] at this
          have hi0 := this.2.resolve_right hi
          rcases h.main with h0 | ⟨c, h0⟩ | ⟨c, -, hst⟩
          · rw [← hi0, hpc] at h0
            cases h0
          · rw [← hi0, hpc] at h0
            cases h0
          · exact .inr (.inl hst)
    · exact .inr (.inl hst)
    · by_cases hi0 : i = 0
      · subst hi0
        obtain ⟨c, h0, hp⟩ := hprep
        have hview : s.view 0 = service s := by
          rw [State.view, hcmd.main hne]
          rfl
        have hself := @after_self s 0 a pc (Nat.ne_of_lt hf.1)
        have hgoes : (∃ d, pc = .onStart d ∧ d.prepares = true) ∨
            (s.view 0).isRunning = true ∧ a = .skip := by
          rw [h0] at hc
          revert hc
          change OnStart.code s 0 c o = _ → _
          fun_cases OnStart.code s 0 c o <;> intro h <;> cases h <;>
            first | exact .inl ⟨_, rfl, rfl⟩ | exact .inr ⟨‹_›, rfl⟩ | cases hp
          -- a session that begins has no result
          simp [after, State.setPc, act, Act.spawns, Pc.isSession] at hs
          omega
        rcases hgoes with ⟨d, rfl, hd⟩ | ⟨hrun, rfl⟩
        · exact .inr (.inr ⟨d, by rw [hself], hd⟩)
        · left
          rw [service_after_of_inEngine (a := .skip) rfl, ← hview]
          exact hrun
      · exact .inr (.inr (hmain hi0 hprep))

/-! ### Steps -/

theorem AskedInv.run (h : AskedInv env s) (hcmd : Commanded s) (hl : Loaded env s) (hf : Fresh s)
    (hlt : s.session < s.spawned) (hfits : ∀ j, (s.threads j).pc.fits = true)
    (hc : code env s i (s.threads i).pc o = some (a, pc)) (hg : InTurn s i o pc) :
    AskedInv env (after s i a pc) := by
  obtain ⟨halone, htold, hrest⟩ := h.turn_after hcmd hf hlt hfits hc hg
  exact
    { main := h.main_after hf hc
      waiting := h.waiting_after hcmd hf hc
      alone := halone
      parts := h.parts_after hf hc hg
      told := htold
      rest := hrest
      asked := h.asked_after hcmd hf hlt hfits hc
      libs := h.libs_after hl hf hlt hfits hc
      bare := fun hb => ⟨(h.bare hb).1.of_eq (bare_after hl hc hb),
        (h.bare hb).2.of_eq (bare_after hl hc hb)⟩ }

/-- What the busy thread has been told does not depend on the service object when it is not running. -/
theorem Told.deliver (h : Told env s i pc) (hfit : pc.fits = true) (hb : pc.busy = true) {c : Command} {k : ℕ}
    (hr : (service s).isRunning = false) (hr' : (service (delivered s c k)).isRunning = false) :
    Told env (delivered s c k) i pc := by
  have hserves : ∀ {site : Site}, site ≠ .async → Caller s i site → False := fun hs hcall => by
    rw [(hcall.serves hs).2] at hr
    cases hr
  cases pc with
  | ended | asn | monitor => cases hb
  | onStart | runVpn =>
    rw [h.1.2] at hr
    cases hr
  | stopVpn c =>
    rw [Told] at h ⊢
    split at h
    · rw [h.1.2] at hr
      cases hr
    · rwa [if_neg ‹_›]
  | restart site => exact (hserves (by rintro rfl; cases hfit) h.1).elim
  | start site | undoCiadpi site | undoProtect site =>
    exact (hserves (by simpa [Pc.fits] using hfit) h.1).elim
  | stopLibs site | stopTun2socks site =>
    cases site with
    | async => exact ⟨hr', fun hs => by cases hs⟩
    | _ => exact (hserves (by simp) h.1).elim
  | stopCiadpi site | stopProtect site =>
    cases site with
    | async => exact ⟨hr', fun hs => (by cases hs), h.2.2⟩
    | _ => exact (hserves (by simp) h.1).elim

/-- After `onDestroy` neither the old service object nor the next one is running. -/
theorem Commanded.destroyed (h : Commanded s) (hmain : (s.threads 0).pc = .ended)
    (hd : s.last = some .destroy) :
    (service s).isRunning = false ∧
    ∀ c, (service (delivered s c (if s.last = some .destroy then s.object +
      1 else s.object))).isRunning = false := by
  refine ⟨?_, fun c => ?_⟩
  · by_contra hr
    obtain ⟨-, ⟨id, hst⟩ | hst | hst⟩ := h.running _ (eq_true_of_ne_false hr)
    · rw [hd] at hst
      cases hst
    · rw [hmain] at hst
      cases hst
    · rw [hmain] at hst
      cases hst
  · rw [if_pos hd]
    by_contra hr
    have := (h.running (s.object + 1) (eq_true_of_ne_false hr)).1
    omega

theorem AskedInv.deliver (h : AskedInv env s) (hcmd : Commanded s)
    (hfits : ∀ j, (s.threads j).pc.fits = true) (hmain : (s.threads 0).pc = .ended) (c : Command) :
    AskedInv env (delivered s c (if s.last = some .destroy then s.object + 1 else s.object)) := by
  generalize hk : (if s.last = some .destroy then s.object + 1 else s.object) = k
  have h0 : ((delivered s c k).threads 0).pc = c.pc := by simp [delivered]
  have hpc : c.pc.busy = false ∧ c.pc.result = none := by cases c <;> exact ⟨rfl, rfl⟩
  have hothers : ∀ j, ((delivered s c k).threads j).pc.busy = true →
      (s.threads j).pc.busy = true ∧ (delivered s c k).threads j = s.threads j := fun j hj => by
    rcases delivered_threads s c k j with ⟨-, he⟩ | ⟨-, he⟩
    · rw [he, hpc.1] at hj
      cases hj
    · rw [he] at hj
      exact ⟨hj, he⟩
  have hfirm : Firm (delivered s c k) → Firm s := fun hf => by
    rcases delivered_threads s c k s.session with ⟨-, he⟩ | ⟨-, he⟩
    · change ((delivered s c k).threads s.session).pc.result = _ at hf
      rw [he, hpc.2] at hf
      cases hf
    · change ((delivered s c k).threads s.session).pc.result = _ at hf
      rw [he] at hf
      exact hf
  have hidle : (∀ j, ((delivered s c k).threads j).pc.busy = false) → ∀ j, (s.threads j).pc.busy = false :=
    fun hall j => by
      rcases delivered_threads s c k j with ⟨rfl, -⟩ | ⟨-, he⟩
      · rw [hmain]
        rfl
      · rw [← he]
        exact hall j
  constructor
  case main =>
    rw [h0]
    cases c with
    | start id => exact .inr (.inl ⟨_, rfl⟩)
    | stop | destroy =>
      refine .inr (.inr ⟨_, rfl, ?_⟩)
      rintro ⟨id, hid⟩
      cases hid
  case waiting =>
    rw [h0]
    cases c with
    | start id => exact fun d hd hw => (by cases hd; cases hw)
    | stop | destroy => exact fun d hd => (by cases hd)
  case alone => exact fun i j hi hj => h.alone i j (hothers i hi).1 (hothers j hj).1
  case parts => exact h.parts.deliver hmain c k
  case told =>
    intro j hj
    obtain ⟨hbj, he⟩ := hothers j hj
    rw [he]
    by_cases hd : s.last = some .destroy
    · exact (h.told j hbj).deliver (hfits j) hbj (hcmd.destroyed hmain hd).1
        (hk ▸ (hcmd.destroyed hmain hd).2 c)
    · rw [if_neg hd] at hk
      subst hk
      exact (h.told j hbj).mono (hfits j) (.of_service rfl rfl rfl rfl) (by rw [he]) hfirm fun _ => rfl
  case rest =>
    intro hall
    have hrest := h.rest (hidle hall)
    by_cases hd : s.last = some .destroy
    · obtain ⟨hr, hr'⟩ := hcmd.destroyed hmain hd
      rw [Rest, if_neg (by simp [hr])] at hrest
      exact rest_of_down (hk ▸ hr' c) hrest.1 hrest.2
    · rw [if_neg hd] at hk
      subst hk
      exact hrest.mono (.of_service rfl rfl rfl rfl) hfirm fun _ => rfl
  case asked =>
    intro _
    cases c with
    | start id => exact .inr (.inr ⟨_, h0, rfl⟩)
    | stop | destroy =>
      refine .inr (.inl ?_)
      rintro ⟨id, hid⟩
      cases hid
  case libs => exact fun hf => h.libs (hfirm hf)
  case bare => exact h.bare

/-- An engine thread leaves its loop while it is being stopped. -/
theorem AskedInv.exit {t : ℕ} (h : AskedInv env s) (hl : Loaded env s) (hp : p ≠ .protect)
    (ht : (s.parts p).job t ≠ none) (hg : InTurns env s (.exit p t)) :
    AskedInv env (s.setPart p ((s.parts p).exited t)) := by
  obtain ⟨j, hj⟩ := hg
  have hbj : (s.threads j).pc.busy = true := busy_of_stage (p := p) fun he => by
    rw [he] at hj
    rcases hj with hj | ⟨u, hj⟩ <;> cases hj
  have hdown : ∀ q, q ≠ p → Down s q → Down (s.setPart p ((s.parts p).exited t)) q := fun q hq hd =>
    hd.of_eq (setPart_of_ne hq)
  constructor
  case main => exact h.main
  case waiting => exact h.waiting
  case alone => exact h.alone
  case parts => exact h.parts.exit hp ht
  case told =>
    intro i hi
    have htold := h.told i hi
    rw [h.alone i j hi hbj] at htold ⊢
    revert htold hj
    change (_ ∨ _) → Told env s j (s.threads j).pc → Told env _ j (s.threads j).pc
    cases (s.threads j).pc with
    | stopTun2socks site c => exact fun _ => id
    | stopCiadpi site c =>
      intro hj ⟨hcall, hf, ht⟩
      refine ⟨hcall, hf, hdown _ (fun he => ?_) ht⟩
      subst he
      rcases hj with hj | ⟨u, hj⟩ <;> cases hj
    | undoCiadpi site c =>
      intro hj ⟨hcall, hn, ht⟩
      refine ⟨hcall, hn, hdown _ (fun he => ?_) ht⟩
      subst he
      rcases hj with hj | ⟨u, hj⟩ <;> cases hj
    | start site b c => cases p <;> cases c <;> rintro (hj | ⟨u, hj⟩) <;> cases hj
    | stopProtect site c => cases p <;> first | exact absurd rfl hp | (rintro (hj | ⟨u, hj⟩) <;> cases hj)
    | undoProtect site b c => cases p <;> first | exact absurd rfl hp | (rintro (hj | ⟨u, hj⟩) <;> cases hj)
    | _ => rintro (hj | ⟨u, hj⟩) <;> cases hj
  case rest =>
    intro hall
    have := hall j
    change (s.threads j).pc.busy = false at this
    rw [hbj] at this
    cases this
  case asked => exact h.asked
  case libs => exact h.libs
  case bare =>
    intro hb
    rw [hl.job p t ht] at hb
    cases hb

/-! ### Runs -/

theorem AskedInv.init (env : Env) : AskedInv env init where
  main := .inl rfl
  waiting _ h := by cases h
  alone _ _ h := by cases h
  parts p := ⟨fun _ _ h => absurd rfl h, fun _ => trivial, fun _ h => absurd rfl h⟩
  told _ h := by cases h
  rest _ := rest_of_down rfl ⟨rfl, fun _ => rfl⟩ ⟨rfl, fun _ => rfl⟩
  asked h := by cases h
  libs h := by cases h
  bare _ := ⟨⟨rfl, fun _ => rfl⟩, ⟨rfl, fun _ => rfl⟩⟩

theorem askedInv_of_reachable (h : Reachable (step env) init (InTurns env) s) : AskedInv env s := by
  refine h.invariant (.init env) fun s l s' hr hi hg hs => ?_
  have hcmd := commanded_of_reachable hr
  have hfits := fits_of_reachable hr
  rcases step_cases hs with ⟨c, rfl, hmain, rfl⟩ | ⟨i, o, a, pc, rfl, hc, rfl⟩ | ⟨p, t, rfl, hp, ht, rfl⟩
  · exact hi.deliver hcmd hfits hmain c
  · exact hi.run hcmd (loaded_of_reachable hr) (fresh_of_reachable hr)
      (session_lt_of_reachable hr) hfits hc (hg a pc hc)
  · exact hi.exit (loaded_of_reachable hr) hp ht hg

/-- **The engine that runs is the engine that was asked for.** In a run whose threads take turns: once
the last command was a start, the session is in its loop after its `ProxyEngine.start` has returned
true, and nothing is in progress, the configuration is that of the active preset, ciadpi runs with its
parameters, and tun2socks on the interface of the session. -/
theorem engine_asked (env : Env) (s : State) (h : Reachable (step env) init (InTurns env) s)
    (hs : Settled s) :
    Asked env s := by
  obtain ⟨hst, -, hres, hq⟩ := hs
  have hinv := askedInv_of_reachable h
  have hidle : ∀ j, (s.threads j).pc.busy = false := fun j => by
    have := hq j
    cases hpc : (s.threads j).pc with
    | ended | asn | monitor => rfl
    | runVpn c =>
      rw [hpc] at this
      cases c <;> first | rfl | cases this
    | _ =>
      rw [hpc] at this
      cases this
  have hrun : (service s).isRunning = true := by
    rcases hinv.asked hres with hr | hn | ⟨c, h0, -⟩
    · exact hr
    · exact absurd hst hn
    · have := hq 0
      rw [h0] at this
      cases this
  have hrest := hinv.rest hidle
  rw [Rest, if_pos hrun] at hrest
  exact (hrest hres).2

/-- A check for `InTurns`. -/
def inTurns (env : Env) (s : State) : Label → Bool
  | .deliver _ => true
  | .run i o =>
    match code env s i (s.threads i).pc o with
    | some (_, pc) =>
      ((s.threads i).pc.busy || !pc.busy || (List.range s.spawned).all fun j => !(s.threads j).pc.busy) &&
      (match (s.threads i).pc with
        | .onStart (.setPreset id) => !(s.view i).isRunning || id = (s.view i).activePresetId
        | .stopVpn .test => !(s.view i).isRunning || i = 0 || i = s.session
        | .restart _ (.pause _) => !s.interrupted i
        | _ => true) &&
      ((s.threads i).pc.busy || !pc.restarting || (s.view i).isRunning) &&
      (!(s.threads i).pc.restarting || !(s.threads i).pc.fallible || o = .ok)
    | none => true
  | .exit p _ => (List.range s.spawned).any fun j =>
    match (s.threads j).pc.stage p with
    | .join | .joining _ => true
    | _ => false

/-- A check for `Settled`. -/
def settled (s : State) : Bool :=
  (match s.last with | some (.start _) => true | _ => false) &&
    (s.threads s.session).pc.inLoop && (s.threads s.session).pc.result = some true &&
    (List.range s.spawned).all fun j => !(s.threads j).pc.underWay

theorem inTurns_of_check {l : Label} (hf : Fresh s) (h : inTurns env s l = true) : InTurns env s l := by
  cases l with
  | deliver c => trivial
  | run i o =>
    intro a pc hc
    simp only [inTurns, hc, Bool.and_eq_true, Bool.or_eq_true, Bool.not_eq_true', decide_eq_true_eq] at h
    obtain ⟨⟨⟨hturn, hpc⟩, hrestart⟩, hok⟩ := h
    refine ⟨fun hb hb' j => ?_, fun id hid hr => ?_, fun hst hr => ?_, fun hb hr => ?_, fun _ hr =>
      ⟨fun hfall => ?_, ?_⟩⟩
    · rcases hturn with (hn | hn) | hall
      · rw [hb] at hn
        cases hn
      · rw [hb'] at hn
        cases hn
      · by_cases hlt : j < s.spawned
        · simpa using List.all_eq_true.mp hall j (List.mem_range.mpr hlt)
        · rw [hf.2 j (by omega)]
          rfl
    · rw [hid, hr] at hpc
      simpa using hpc
    · rw [hst, hr] at hpc
      simpa using hpc
    · rcases hrestart with (hn | hn) | hrun
      · rw [hb] at hn
        cases hn
      · rw [hr] at hn
        cases hn
      · exact hrun
    · rcases hok with (hn | hn) | hok
      · rw [hr] at hn
        cases hn
      · rw [hfall] at hn
        cases hn
      · exact hok
    · intro site t ht
      rw [ht] at hpc
      simpa using hpc
  | exit p t =>
    simp only [inTurns, List.any_eq_true] at h
    obtain ⟨j, -, hj⟩ := h
    refine ⟨j, ?_⟩
    cases hst : (s.threads j).pc.stage p with
    | join => exact .inl rfl
    | joining u => exact .inr ⟨u, rfl⟩
    | _ =>
      rw [hst] at hj
      cases hj

theorem settled_of_check (hf : Fresh s) (h : settled s = true) : Settled s := by
  simp only [settled, Bool.and_eq_true, decide_eq_true_eq] at h
  obtain ⟨⟨⟨hlast, hloop⟩, hres⟩, hall⟩ := h
  refine ⟨?_, hloop, hres, fun j => ?_⟩
  · cases hl : s.last with
    | none =>
      rw [hl] at hlast
      cases hlast
    | some c =>
      rw [hl] at hlast
      cases c with
      | start id => exact ⟨id, hl⟩
      | _ => cases hlast
  · by_cases hlt : j < s.spawned
    · simpa using List.all_eq_true.mp hall j (List.mem_range.mpr hlt)
    · rw [hf.2 j (by omega)]
      rfl

/-- `ProxyEngineStop` of thread `i`, with the engine threads `n` and `m`. -/
def engineStopLabels (i n m : ℕ) : List Label :=
  List.replicate 3 (.run i .ok) ++ .exit .tun2socks n :: List.replicate 4 (.run i .ok) ++
    .exit .ciadpi m :: List.replicate 5 (.run i .ok)

/-- A session with a second start of the same preset and a restart, its stop, and a session with another
preset. -/
theorem engine_asked_youtube : ∃ s, Reachable (step deviceEnv) init (InTurns deviceEnv) s ∧
    (service s).activePresetId = "youtube" ∧ s.session = 5 ∧ Asked deviceEnv s := by
  obtain ⟨s, hs, hf⟩ := reachable_of_run (step deviceEnv) init (c := inTurns deviceEnv)
    (fun s l hr => inTurns_of_check (fresh_of_reachable hr))
    (startLabels none ++ sessionLabels 1 ++ .deliver (.start (some "universal")) ::
      List.replicate 3 (.run 0 .ok) ++
      restartLabels 3 ++ stopLabels ++ engineStopLabels 4 1 1 ++ [.run 1 .ok, .run 1 .ok] ++
      startLabels (some "youtube") ++ sessionLabels 5)
    (fun s => (settled s, (service s).activePresetId, s.session)) (b := (true, "youtube", 5))
    (by decide +kernel)
  simp only [Prod.mk.injEq] at hf
  exact ⟨s, hs, hf.2.1, hf.2.2, engine_asked deviceEnv s hs (settled_of_check (fresh_of_reachable hs) hf.1)⟩

/-- A start names another preset while the service is running: the preset and the configuration change,
and ciadpi goes on with its old parameters. -/
theorem engine_not_asked : ¬ ∀ (env : Env) (s : State), Reachable (step env) init anyStep s → Settled s →
    Asked env s := by
  intro h
  obtain ⟨s, hs, hf⟩ := reachable_of_run (step deviceEnv) init anyStep_of_true
    (startLabels none ++ sessionLabels 1 ++ .deliver (.start (some "mts-ru")) ::
      List.replicate 3 (.run 0 .ok))
    (fun s => (settled s, (service s).currentConfig, (service s).hasRealIpv6, (s.parts .ciadpi).job 0))
    (b := (true, loadPreset "mts-ru", true,
      some (.proxy (ciadpiArgs (loadPreset "universal") deviceEnv.protectPath true)))) (by decide +kernel)
  simp only [Prod.mk.injEq] at hf
  obtain ⟨hset, hconfig, hipv6, hjob⟩ := hf
  obtain ⟨path, hpath, he⟩ := (h deviceEnv s hs (settled_of_check
    (fresh_of_reachable hs) hset)).proxy.2 0 _ hjob
  rw [hconfig, hipv6] at he
  rcases hpath with rfl | rfl
  · exact absurd he (by decide)
  · exact absurd he (by decide)

end BypassVpn.Service
