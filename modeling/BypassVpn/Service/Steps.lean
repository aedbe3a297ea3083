import BypassVpn.Service.Model

/-!
# What a statement changes

The state after a statement, thread by thread and field by field.

* `after`, `step_run`: a step of a thread; `Fresh`: the numbers that no thread has yet.
* **`after_cases`**: the thread that ran, the one it started, and the others.
* `code_inEngine`, `code_spawns`: what the statements of the engine touch, what a new thread begins
  with.
* `step_cases`: what a step can do; `startLabels`, `stopLabels`, `sessionLabels`: runs to put together.
-/

namespace BypassVpn.Service

variable {env : Env} {s s' : State} {i j : ℕ} {o : Outcome} {a : Act} {pc pc' q : Pc}

/-- The state after a statement of thread `i`. -/
def after (s : State) (i : ℕ) (a : Act) (pc : Pc) : State := (act s i a).setPc i pc

theorem step_run (h : step env s (.run i o) = some s') :
    ∃ a pc, code env s i (s.threads i).pc o = some (a, pc) ∧ s' = after s i a pc := by
  obtain ⟨⟨a, pc⟩, hc, rfl⟩ := Option.map_eq_some_iff.mp h
  exact ⟨a, pc, hc, rfl⟩

/-- The numbers from `spawned` on are free. -/
def Fresh (s : State) : Prop := 0 < s.spawned ∧ ∀ i, s.spawned ≤ i → (s.threads i).pc = .ended

theorem pc_ne_ended (h : code env s i pc o = some (a, pc')) : pc ≠ .ended := by
  rintro rfl
  cases h

theorem Fresh.lt (h : Fresh s) (hi : (s.threads i).pc ≠ .ended) : i < s.spawned := by
  by_contra hlt
  exact hi (h.2 i (by omega))

theorem onThreads_of_ne (a : Act) (hj : j ≠ s.spawned) : a.onThreads s i j = s.threads j := by
  cases a <;> first | rfl | exact Function.update_of_ne hj _ _

theorem after_self (hi : i ≠ s.spawned) :
    (after s i a pc).threads i = { pc := pc, object := (s.threads i).object } := by
  simp only [after, State.setPc, act, Function.update_self, onThreads_of_ne a hi]

theorem after_of_ne (hji : j ≠ i) (hj : j ≠ s.spawned) : (after s i a pc).threads j = s.threads j := by
  simp only [after, State.setPc, act, Function.update_of_ne hji, onThreads_of_ne a hj]

theorem after_spawned (hi : s.spawned ≠ i) (ha : a.spawns = some q) :
    (after s i a pc).threads s.spawned = { pc := q, object := (s.threads i).object } := by
  cases a with
  | spawn q' =>
    cases ha
    simp only [after, State.setPc, act, Function.update_of_ne hi, Act.onThreads, Function.update_self]
  | _ => cases ha

theorem after_not_spawned (hi : s.spawned ≠ i) (ha : a.spawns = none) :
    (after s i a pc).threads s.spawned = s.threads s.spawned := by
  cases a with
  | spawn q => cases ha
  | _ => simp only [after, State.setPc, act, Function.update_of_ne hi, Act.onThreads]

/-- **The threads after a statement**: the one that ran, the one it started, and the others. -/
theorem after_cases (hf : Fresh s) (hi : (s.threads i).pc ≠ .ended) (a : Act) (pc : Pc) (j : ℕ) :
    j = i ∧ (after s i a pc).threads j = { pc := pc, object := (s.threads i).object } ∨
    (∃ q, a.spawns = some q ∧ j = s.spawned ∧
      (after s i a pc).threads j = { pc := q, object := (s.threads i).object }) ∨
    j ≠ i ∧ (after s i a pc).threads j = s.threads j := by
  have his : i ≠ s.spawned := Nat.ne_of_lt (hf.lt hi)
  by_cases hji : j = i
  · subst hji
    exact .inl ⟨rfl, after_self his⟩
  · by_cases hjs : j = s.spawned
    · subst hjs
      cases ha : a.spawns with
      | none => exact .inr (.inr ⟨hji, after_not_spawned hji ha⟩)
      | some q => exact .inr (.inl ⟨q, rfl, rfl, after_spawned hji ha⟩)
    · exact .inr (.inr ⟨hji, after_of_ne hji hjs⟩)

/-- A thread that was there before and did not run is there unchanged. -/
theorem after_same (hf : Fresh s) (hji : j ≠ i) (hj : (s.threads j).pc ≠ .ended) :
    (after s i a pc).threads j = s.threads j := after_of_ne hji (Nat.ne_of_lt (hf.lt hj))

theorem le_spawned (s : State) (i : ℕ) (a : Act) (pc : Pc) : s.spawned ≤ (after s i a pc).spawned := by
  simp only [after, State.setPc, act]
  split <;> omega

theorem Fresh.after (hf : Fresh s) (hi : (s.threads i).pc ≠ .ended) : Fresh (after s i a pc) := by
  have hle := le_spawned s i a pc
  refine ⟨Nat.lt_of_lt_of_le hf.1 hle, fun j hj => ?_⟩
  rcases after_cases hf hi a pc j with ⟨rfl, -⟩ | ⟨q, ha, rfl, -⟩ | ⟨-, he⟩
  · have := hf.lt hi
    omega
  · simp only [Service.after, State.setPc, act, ha, Option.isSome_some, if_true] at hj
    omega
  · rw [he]
    exact hf.2 j (by omega)

@[simp] theorem after_parts (p : Part) : (after s i a pc).parts p = a.onPart p (s.parts p) := rfl

@[simp] theorem after_tuns : (after s i a pc).tuns = a.onTuns s i := rfl

@[simp] theorem after_object : (after s i a pc).object = s.object := rfl

@[simp] theorem after_last : (after s i a pc).last = s.last := rfl

theorem after_fields_self : (after s i a pc).fields (s.threads i).object = a.onFields (s.view i) := by
  simp only [after, State.setPc, act, Function.update_self]

theorem after_fields_of_ne {k : ℕ} (hk : k ≠ (s.threads i).object) :
    (after s i a pc).fields k = s.fields k := by
  simp only [after, State.setPc, act, Function.update_of_ne hk]

/-! ### The statements of the engine -/

/-- Inside `ProxyEngine.start` or `ProxyEngine.stop`. -/
def Pc.inEngine : Pc → Bool
  | .start .. | .stopLibs .. | .stopTun2socks .. | .stopCiadpi .. | .stopProtect .. | .undoCiadpi ..
  | .undoProtect .. => true
  | _ => false

/-- An effect on the engine only. -/
def Act.inEngine : Act → Bool
  | .skip | .setFlag .. | .create .. | .bind | .setServer _ | .closeServer => true
  | _ => false

/-- The statements of the engine stay there or return, and touch nothing else. -/
theorem code_inEngine (hpc : pc.inEngine = true) (h : code env s i pc o = some (a, pc')) :
    a.inEngine = true ∧ (pc'.inEngine = true ∨ ∃ site b, pc' = Site.started b site ∨ pc' = site.stopped) := by
  revert h
  cases pc with
  | start site b c =>
    change Start.code env s site b c o = _ → _
    fun_cases Start.code env s site b c o <;> intro h <;> cases h <;>
      first | exact ⟨rfl, .inl rfl⟩ | exact ⟨rfl, .inr ⟨site, _, .inl rfl⟩⟩
  | stopLibs site =>
    change stopLibs env site o = _ → _
    fun_cases stopLibs env site o <;> intro h <;> cases h <;>
      first | exact ⟨rfl, .inl rfl⟩ | exact ⟨rfl, .inr ⟨site, false, .inr rfl⟩⟩
  | stopTun2socks site c =>
    change Stop.code s _ _ _ c o = _ → _
    fun_cases Stop.code s .tun2socks (.stopTun2socks site) (.stopCiadpi site .test) c o <;> intro h <;>
      cases h <;> exact ⟨rfl, .inl rfl⟩
  | stopCiadpi site c =>
    change Stop.code s _ _ _ c o = _ → _
    fun_cases Stop.code s .ciadpi (.stopCiadpi site) (.stopProtect site .clear) c o <;> intro h <;>
      cases h <;> exact ⟨rfl, .inl rfl⟩
  | stopProtect site c =>
    change StopServer.code _ _ c o = _ → _
    fun_cases StopServer.code (.stopProtect site) site.stopped c o <;> intro h <;> cases h <;>
      first | exact ⟨rfl, .inl rfl⟩ | exact ⟨rfl, .inr ⟨site, false, .inr rfl⟩⟩
  | undoCiadpi site c =>
    change Stop.code s _ _ _ c o = _ → _
    fun_cases Stop.code s .ciadpi (.undoCiadpi site) (site.started false) c o <;> intro h <;> cases h <;>
      first | exact ⟨rfl, .inl rfl⟩ | exact ⟨rfl, .inr ⟨site, false, .inl rfl⟩⟩
  | undoProtect site b c =>
    change StopServer.code _ _ c o = _ → _
    fun_cases StopServer.code (.undoProtect site b) (.start site b (.ciadpiTest false)) c o <;> intro h <;>
      cases h <;> exact ⟨rfl, .inl rfl⟩
  | _ => cases hpc

theorem Act.inEngine_frame (ha : a.inEngine = true) :
    (∀ f, a.onFields f = f) ∧ a.onTuns s i = s.tuns ∧ a.spawns = none := by
  cases a <;> first | exact ⟨fun _ => rfl, rfl, rfl⟩ | cases ha

theorem code_spawns (h : code env s i pc o = some (a, pc')) (ha : a.spawns = some q) :
    (pc = .onStart .spawn ∧ q = .runVpn .probe ∧ pc' = .onStart (.keep s.spawned)) ∨
    (pc = .stopVpn .spawn ∧ q = .stopLibs .async ∧ pc' = .stopVpn (.keep s.spawned)) ∨
    (∃ b, pc = .runVpn (.spawnMonitor b) ∧
      q = .monitor { nativeBuilt := b && env.isNativeTun2socksBuilt } .test ∧
      pc' = .runVpn (.keepMonitor b s.spawned)) ∨
    (∃ b, pc = .runVpn (.spawnAsn b) ∧ q = .asn .sleep ∧ pc' = .runVpn (.enter b)) := by
  by_cases hpc : pc.inEngine = true
  · rw [(Act.inEngine_frame (s := s) (i := i) (code_inEngine hpc h).1).2.2] at ha
    cases ha
  revert h
  cases pc with
  | onStart c =>
    change OnStart.code s i c o = _ → _
    fun_cases OnStart.code s i c o <;> intro h <;> cases h <;> cases ha
    exact .inl ⟨rfl, rfl, rfl⟩
  | stopVpn c =>
    change StopVpn.code s i c o = _ → _
    fun_cases StopVpn.code s i c o <;> intro h <;> cases h <;> cases ha
    exact .inr (.inl ⟨rfl, rfl, rfl⟩)
  | runVpn c =>
    change RunVpn.code env s i c o = _ → _
    fun_cases RunVpn.code env s i c o <;> intro h <;> cases h <;> cases ha
    · exact .inr (.inr (.inl ⟨_, rfl, rfl, rfl⟩))
    · exact .inr (.inr (.inr ⟨_, rfl, rfl, rfl⟩))
  | asn c =>
    change AsnAutoDetect.code s i c o = _ → _
    fun_cases AsnAutoDetect.code s i c o <;> intro h <;> cases h <;> cases ha
  | monitor w c =>
    change PresetMonitor.code s i w c o = _ → _
    fun_cases PresetMonitor.code s i w c o <;> intro h <;> cases h <;> cases ha
  | restart site c =>
    change Restart.code s i site c o = _ → _
    fun_cases Restart.code s i site c o <;> intro h <;> cases h <;> cases ha
  | ended => intro h; cases h
  | _ => exact absurd rfl hpc

/-! ### Commands and exits -/

/-- A command reaches the main thread; `k` is the service object it is for. -/
def delivered (s : State) (c : Command) (k : ℕ) : State :=
  { s with
    object := k
    last := some c
    threads := Function.update s.threads 0 { pc := c.pc, object := k } }

theorem delivered_threads (s : State) (c : Command) (k j : ℕ) :
    j = 0 ∧ (delivered s c k).threads j = { pc := c.pc, object := k } ∨
    j ≠ 0 ∧ (delivered s c k).threads j = s.threads j := by
  by_cases hj : j = 0
  · subst hj
    exact .inl ⟨rfl, by simp only [delivered, Function.update_self]⟩
  · exact .inr ⟨hj, by simp only [delivered, Function.update_of_ne hj]⟩

/-- What holds of some thread that is not idle still does. -/
theorem exists_delivered {P : Thread → Prop} (hmain : (s.threads 0).pc = .ended) (c : Command) (k : ℕ)
    (hP : ∀ x, P x → x.pc ≠ .ended) (h : ∃ j, P (s.threads j)) : ∃ j, P ((delivered s c k).threads j) := by
  obtain ⟨j, hj⟩ := h
  rcases delivered_threads s c k j with ⟨rfl, -⟩ | ⟨-, he⟩
  · exact absurd hmain (hP _ hj)
  · exact ⟨j, by rw [he]; exact hj⟩

/-- An engine thread has left its loop. -/
def PartState.exited (x : PartState) (t : ℕ) : PartState :=
  { x with running := false, job := Function.update x.job t none }

/-- **What a step can do.** -/
theorem step_cases {l : Label} (h : step env s l = some s') :
    (∃ c, l = .deliver c ∧ (s.threads 0).pc = .ended ∧
      s' = delivered s c (if s.last = some .destroy then s.object + 1 else s.object)) ∨
    (∃ i o a pc, l = .run i o ∧ code env s i (s.threads i).pc o = some (a, pc) ∧ s' = after s i a pc) ∨
    ∃ p t, l = .exit p t ∧ p ≠ .protect ∧ (s.parts p).job t ≠ none ∧
      s' = s.setPart p ((s.parts p).exited t) := by
  cases l with
  | deliver c =>
    simp only [step, Option.ite_none_right_eq_some, Option.some.injEq] at h
    obtain ⟨⟨hmain, -⟩, rfl⟩ := h
    exact .inl ⟨c, rfl, hmain, rfl⟩
  | run i o =>
    obtain ⟨a, pc, hc, rfl⟩ := step_run h
    exact .inr (.inl ⟨i, o, a, pc, rfl, hc, rfl⟩)
  | exit p t =>
    simp only [step, Option.ite_none_right_eq_some, Option.some.injEq] at h
    obtain ⟨⟨hp, ht⟩, rfl⟩ := h
    exact .inr (.inr ⟨p, t, rfl, hp, ht, rfl⟩)

theorem Fresh.step {l : Label} (h : Fresh s) (hs : step env s l = some s') : Fresh s' := by
  rcases step_cases hs with ⟨c, -, -, rfl⟩ | ⟨i, o, a, pc, -, hc, rfl⟩ | ⟨p, t, -, -, -, rfl⟩
  · refine ⟨h.1, fun j hj => ?_⟩
    rcases delivered_threads s c _ j with ⟨rfl, -⟩ | ⟨-, he⟩
    · have := h.1
      simp only [delivered] at hj
      omega
    · rw [he]
      exact h.2 j hj
  · exact h.after (pc_ne_ended hc)
  · exact h

theorem fresh_of_reachable {guard : State → Label → Prop} (h : Transition.Reachable (step env) init guard s) :
    Fresh s := h.invariant ⟨by decide, fun _ _ => rfl⟩ fun _ _ _ _ hf _ hs => hf.step hs

theorem session_lt_of_reachable {guard : State → Label → Prop}
    (h : Transition.Reachable (step env) init guard s) : s.session < s.spawned := by
  induction h with
  | init => exact Nat.one_pos
  | step _ _ hs ih =>
    rcases step_cases hs with ⟨c, -, -, rfl⟩ | ⟨i, o, a, pc, -, -, rfl⟩ | ⟨p, t, -, -, -, rfl⟩
    · exact ih
    · simp only [after, State.setPc, act]
      cases a.spawns with
      | none => exact ih
      | some q =>
        simp only [Option.isSome_some, if_true]
        split <;> omega
    · exact ih

/-! ### The steps of a command and of a session -/

/-- A device with the native libraries. -/
def deviceEnv : Env :=
  { nativeLibsLoaded := true, isNativeTun2socksBuilt := true, protectPath := "/data/files/protect_path" }

/-- `ACTION_START` with its eight statements. -/
def startLabels (presetId : Option String) : List Label :=
  .deliver (.start presetId) :: List.replicate 8 (.run 0 .ok)

/-- `ACTION_STOP` with the ten statements of `stopVpn`. -/
def stopLabels : List Label := .deliver .stop :: List.replicate 10 (.run 0 .ok)

/-- `runVpn` of thread `i`, from its beginning to its loop. -/
def sessionLabels (i : ℕ) : List Label := .run i (.network true) :: List.replicate 22 (.run i .ok)

end BypassVpn.Service
