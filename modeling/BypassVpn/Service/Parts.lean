import BypassVpn.Service.Steps

/-!
# One part of the engine

What the threads do to one of `ProtectSocketServer`, ciadpi and tun2socks: a thread that is past the
test of a start or stop of the part is at a `Stage`, and a statement moves the part and the stage of
its thread by a `PartStep`.

* `Pc.stage`; **`code_part`**: every statement is a `PartStep` of every part.
* `PartInv`: what holds as long as no two threads are past their tests at the same part;
  **`PartInv.step`**.
* `Act.acquires`, `Loaded`: what brings up a part; without the native libraries nothing does.
-/

namespace BypassVpn.Service

/-- Where a thread stands that is past the test of a start or stop of a part. -/
inductive Stage where
  | out
  /-- `ciadpiStart`, `tun2socksStart`. -/
  | flag
  | create
  | unset
  /-- `ciadpiStop`, `tun2socksStop`. -/
  | join
  | joining (t : ℕ)
  | clear
  /-- `ProtectSocketServer.start`. -/
  | bind
  | store (t : ℕ)
  | announce
  /-- `ProtectSocketServer.stop`. -/
  | close
  | drop
  /-- The `stop` of a failed `ProtectSocketServer.start`. -/
  | undo
  deriving DecidableEq, Repr

/-- Where a start stands towards a part. -/
def Start.stage (p : Part) : Start → Stage
  | .protectBind => if p = .protect then .bind else .out
  | .protectStore t => if p = .protect then .store t else .out
  | .protectFlag => if p = .protect then .announce else .out
  | .ciadpiFlag _ => if p = .ciadpi then .flag else .out
  | .ciadpiCreate _ => if p = .ciadpi then .create else .out
  | .ciadpiUnset => if p = .ciadpi then .unset else .out
  | .tun2socksFlag => if p = .tun2socks then .flag else .out
  | .tun2socksCreate => if p = .tun2socks then .create else .out
  | .tun2socksUnset => if p = .tun2socks then .unset else .out
  | _ => .out

/-- Where a stop stands towards an engine. -/
def Stop.stage : Stop → Stage
  | .test => .out
  | .join => .join
  | .joining t => .joining t
  | .clear => .clear

/-- Where a stop stands towards the protect server. -/
def StopServer.stage : StopServer → Stage
  | .clear => .out
  | .close => .close
  | .drop => .drop

/-- The stage of a thread at a part. -/
def Pc.stage (p : Part) : Pc → Stage
  | .start _ _ c => c.stage p
  | .stopTun2socks _ c => if p = .tun2socks then c.stage else .out
  | .stopCiadpi _ c => if p = .ciadpi then c.stage else .out
  | .undoCiadpi _ c => if p = .ciadpi then c.stage else .out
  | .stopProtect _ c => if p = .protect then c.stage else .out
  | .undoProtect _ _ _ => if p = .protect then .undo else .out
  | _ => .out

/-- What a statement does to a part and to the stage of its thread. -/
inductive PartStep (x : PartState) : Stage → PartState → Stage → Prop
  | idle : PartStep x .out x .out
  | startTest (h : x.running = false) : PartStep x .out x .flag
  | flag : PartStep x .flag (x.setRunning true) .create
  | create (j : Job) : PartStep x .create (x.create j) .out
  | createFails : PartStep x .create x .unset
  | unset : PartStep x .unset (x.setRunning false) .out
  | stopTest (h : x.running = true) : PartStep x .out x .join
  | join {t : ℕ} (h : x.handle = some t) : PartStep x .join x (.joining t)
  | joinNone (h : x.handle = none) : PartStep x .join x .clear
  | joined {t : ℕ} (h : x.job t = none) : PartStep x (.joining t) x .clear
  | clear : PartStep x .clear (x.setRunning false) .out
  | bindTest (h : x.running = false) : PartStep x .out x .bind
  | bind : PartStep x .bind x.bind (.store x.created)
  | bindFails : PartStep x .bind x .undo
  | store {t : ℕ} : PartStep x (.store t) { x with handle := some t } .announce
  | announce : PartStep x .announce (x.setRunning true) .out
  | stopServer : PartStep x .out (x.setRunning false) .close
  | close : PartStep x .close x.close .drop
  | drop : PartStep x .drop { x with handle := none } .out
  | undoClear : PartStep x .undo (x.setRunning false) .undo
  | undoClose : PartStep x .undo x.close .undo
  | undoDrop : PartStep x .undo { x with handle := none } .out

@[simp] theorem Site.stage_resume (p : Part) (site : Site) : site.resume.stage p = .out := by
  cases site <;> rfl

@[simp] theorem Site.stage_started (p : Part) (b : Bool) (site : Site) : (site.started b).stage p = .out := by
  cases site <;> rfl

@[simp] theorem Site.stage_stopped (p : Part) (site : Site) : site.stopped.stage p = .out := by
  cases site <;> rfl

theorem Pc.stage_stopCiadpi_test (p : Part) (site : Site) : (Pc.stopCiadpi site .test).stage p = .out :=
  ite_self _

theorem Pc.stage_stopProtect_clear (p : Part) (site : Site) : (Pc.stopProtect site .clear).stage p = .out :=
  ite_self _

variable {env : Env} {s s' : State} {i : ℕ} {o : Outcome} {a : Act} {pc pc' : Pc} {p : Part}

theorem PartStep.of_out {p : Part} {x : PartState} (ha : a.onPart p x = x) (h : pc.stage p = .out)
    (h' : pc'.stage p = .out) : PartStep x (pc.stage p) (a.onPart p x) (pc'.stage p) := by
  rw [ha, h, h']
  exact .idle

theorem OnStart.code_part {c : OnStart} {p : Part} (h : c.code s i o = some (a, pc')) :
    a.onPart p (s.parts p) = s.parts p ∧ pc'.stage p = .out := by
  revert h
  fun_cases OnStart.code s i c o <;> intro h <;> cases h <;> exact ⟨rfl, rfl⟩

theorem StopVpn.code_part {c : StopVpn} {p : Part} (h : c.code s i o = some (a, pc')) :
    a.onPart p (s.parts p) = s.parts p ∧ pc'.stage p = .out := by
  revert h
  fun_cases StopVpn.code s i c o <;> intro h <;> cases h <;> exact ⟨rfl, rfl⟩

theorem RunVpn.code_part {c : RunVpn} {p : Part} (h : c.code env s i o = some (a, pc')) :
    a.onPart p (s.parts p) = s.parts p ∧ pc'.stage p = .out := by
  revert h
  fun_cases RunVpn.code env s i c o <;> intro h <;> cases h <;> exact ⟨rfl, rfl⟩

theorem AsnAutoDetect.code_part {c : AsnAutoDetect} {p : Part} (h : c.code s i o = some (a, pc')) :
    a.onPart p (s.parts p) = s.parts p ∧ pc'.stage p = .out := by
  revert h
  fun_cases AsnAutoDetect.code s i c o <;> intro h <;> cases h <;> exact ⟨rfl, rfl⟩

theorem PresetMonitor.code_part {c : PresetMonitor} {w : Watch} {p : Part}
    (h : c.code s i w o = some (a, pc')) : a.onPart p (s.parts p) = s.parts p ∧ pc'.stage p = .out := by
  revert h
  fun_cases PresetMonitor.code s i w c o <;> intro h <;> cases h <;> exact ⟨rfl, rfl⟩

theorem Restart.code_part {c : Restart} {site : Site} {p : Part} (h : c.code s i site o = some (a, pc')) :
    a.onPart p (s.parts p) = s.parts p ∧ pc'.stage p = .out := by
  revert h
  fun_cases Restart.code s i site c o <;> intro h <;> cases h <;>
    first | exact ⟨rfl, rfl⟩ | exact ⟨rfl, site.stage_resume p⟩

theorem stopLibs_part {site : Site} {p : Part} (h : stopLibs env site o = some (a, pc')) :
    a.onPart p (s.parts p) = s.parts p ∧ pc'.stage p = .out := by
  revert h
  fun_cases stopLibs env site o <;> intro h <;> cases h
  · exact ⟨rfl, ite_self _⟩
  · exact ⟨rfl, site.stage_stopped p⟩

theorem Stop.code_part {c : Stop} {p q : Part} {at_ : Stop → Pc} {after : Pc}
    (hat : ∀ c, (at_ c).stage p = if p = q then c.stage else .out) (hafter : after.stage p = .out)
    (h : c.code s q at_ after o = some (a, pc')) :
    PartStep (s.parts p) ((at_ c).stage p) (a.onPart p (s.parts p)) (pc'.stage p) := by
  rw [hat c]
  by_cases hp : p = q
  · subst hp
    simp only [if_true] at hat ⊢
    revert h
    fun_cases Stop.code s p at_ after c o <;> intro h <;> cases h <;> simp only [hat, hafter]
    · exact .stopTest ‹_›
    · exact .idle
    · exact .join ‹_›
    · exact .joinNone ‹_›
    · exact .joined ‹_›
    · rw [Act.onPart, if_pos rfl]
      exact .clear
  · simp only [if_neg hp] at hat ⊢
    have hq : ¬ q = p := fun h => hp h.symm
    revert h
    fun_cases Stop.code s q at_ after c o <;> intro h <;> cases h <;>
      simp only [Act.onPart, if_neg hq, hat, hafter] <;> exact .idle

theorem StopServer.code_part {c : StopServer} {p : Part} {at_ : StopServer → Pc} {after : Pc}
    (hat : ∀ c, (at_ c).stage p = if p = .protect then c.stage else .out) (hafter : after.stage p = .out)
    (h : c.code at_ after o = some (a, pc')) :
    PartStep (s.parts p) ((at_ c).stage p) (a.onPart p (s.parts p)) (pc'.stage p) := by
  rw [hat c]
  by_cases hp : p = .protect
  · subst hp
    simp only [if_true] at hat ⊢
    revert h
    fun_cases StopServer.code at_ after c o <;> intro h <;> cases h <;>
      simp only [Act.onPart, if_true, hat, hafter]
    · exact .stopServer
    · exact .close
    · exact .drop
  · simp only [if_neg hp] at hat ⊢
    have hq : ¬ Part.protect = p := fun h => hp h.symm
    revert h
    fun_cases StopServer.code at_ after c o <;> intro h <;> cases h <;>
      simp only [Act.onPart, if_neg hp, if_neg hq, hat, hafter] <;> exact .idle

/-- The `stop` of a start that failed is one stage. -/
theorem StopServer.code_undo {c : StopServer} {site : Site} {b : StartArgs} {p : Part}
    (h : c.code (.undoProtect site b) (.start site b (.ciadpiTest false)) o = some (a, pc')) :
    PartStep (s.parts p) ((Pc.undoProtect site b c).stage p) (a.onPart p (s.parts p)) (pc'.stage p) := by
  revert h
  fun_cases StopServer.code (.undoProtect site b) (.start site b (.ciadpiTest false)) c o <;> intro h <;>
    cases h <;> cases p <;> try exact .idle
  · exact .undoClear
  · exact .undoClose
  · exact .undoDrop

theorem Start.code_part {c : Start} {site : Site} {b : StartArgs} {p : Part}
    (h : c.code env s site b o = some (a, pc')) :
    PartStep (s.parts p) (c.stage p) (a.onPart p (s.parts p)) (pc'.stage p) := by
  revert h
  fun_cases Start.code env s site b c o <;> intro h <;> cases h <;> cases p <;>
    (try simp only [Site.stage_started]) <;> try exact .idle
  · exact .bindTest (eq_false_of_ne_true ‹_›)
  · exact .bind
  · exact .bindFails
  · exact .store
  · exact .announce
  · exact .startTest (eq_false_of_ne_true ‹_›)
  · exact .flag
  · exact .create _
  · exact .createFails
  · exact .unset
  · exact .startTest (eq_false_of_ne_true ‹_›)
  · exact .flag
  · exact .create _
  · exact .createFails
  · exact .unset

/-- **Every statement is a step of every part.** -/
theorem code_part (p : Part) (h : code env s i pc o = some (a, pc')) :
    PartStep (s.parts p) (pc.stage p) (a.onPart p (s.parts p)) (pc'.stage p) := by
  cases pc with
  | ended => cases h
  | onStart c => exact .of_out (OnStart.code_part h).1 rfl (OnStart.code_part (p := p) h).2
  | stopVpn c => exact .of_out (StopVpn.code_part h).1 rfl (StopVpn.code_part (p := p) h).2
  | runVpn c => exact .of_out (RunVpn.code_part h).1 rfl (RunVpn.code_part (p := p) h).2
  | asn c => exact .of_out (AsnAutoDetect.code_part h).1 rfl (AsnAutoDetect.code_part (p := p) h).2
  | monitor w c => exact .of_out (PresetMonitor.code_part h).1 rfl (PresetMonitor.code_part (p := p) h).2
  | restart site c => exact .of_out (Restart.code_part h).1 rfl (Restart.code_part (p := p) h).2
  | start site b c => exact Start.code_part h
  | stopLibs site => exact .of_out (stopLibs_part h).1 rfl (stopLibs_part (s := s) (p := p) h).2
  | stopTun2socks site c => exact Stop.code_part (fun _ => rfl) (Pc.stage_stopCiadpi_test p site) h
  | stopCiadpi site c => exact Stop.code_part (fun _ => rfl) (Pc.stage_stopProtect_clear p site) h
  | stopProtect site c => exact StopServer.code_part (fun _ => rfl) (site.stage_stopped p) h
  | undoCiadpi site c => exact Stop.code_part (fun _ => rfl) (site.stage_started p false) h
  | undoProtect site b c => exact StopServer.code_undo h

theorem after_stages (p : Part) (hf : Fresh s) (hc : code env s i (s.threads i).pc o = some (a, pc)) :
    (fun j => ((after s i a pc).threads j).pc.stage p) =
      Function.update (fun j => (s.threads j).pc.stage p) i (pc.stage p) := by
  funext j
  rcases after_cases hf (pc_ne_ended hc) a pc j with ⟨rfl, he⟩ | ⟨q, ha, rfl, he⟩ | ⟨hne, he⟩
  · rw [Function.update_self, he]
  · have hsi : s.spawned ≠ i := (Nat.ne_of_lt (hf.lt (pc_ne_ended hc))).symm
    rw [Function.update_of_ne hsi, he, hf.2 s.spawned (Nat.le_refl _)]
    rcases code_spawns hc ha with ⟨-, rfl, -⟩ | ⟨-, rfl, -⟩ | ⟨b, -, rfl, -⟩ | ⟨b, -, rfl, -⟩ <;> rfl
  · rw [Function.update_of_ne hne, he]

/-! ### A part that is used by one thread at a time -/

/-- What a thread at a stage knows about the part. -/
def Knows (x : PartState) : Stage → Prop
  | .out | .join => True
  | .flag | .unset | .clear | .bind | .drop | .undo => ∀ t, x.job t = none
  | .create => x.running = true ∧ ∀ t, x.job t = none
  | .joining t => x.handle = some t
  | .store t => ∀ u, x.job u ≠ none → u = t
  | .announce | .close => ∀ u, x.job u ≠ none → x.handle = some u

/-- The stages at which a server socket may be open although `running` is clear. -/
def Stage.server : Stage → Bool
  | .store _ | .announce | .close => true
  | _ => false

theorem server_stage_of_ne {p : Part} (hp : p ≠ .protect) (pc : Pc) : (pc.stage p).server = false := by
  cases p with
  | protect => exact absurd rfl hp
  | _ =>
    cases pc with
    | start _ _ c => cases c <;> rfl
    | stopTun2socks _ c => cases c <;> rfl
    | stopCiadpi _ c => cases c <;> rfl
    | undoCiadpi _ c => cases c <;> rfl
    | _ => rfl

/-- A running job is the current one, or a thread has it in hand. -/
def Recorded (x : PartState) (st : Stage) : Prop :=
  ∀ t, x.job t ≠ none → (x.handle = some t ∧ x.running = true) ∨ st.server = true

theorem Recorded.of_none {x : PartState} (st : Stage) (h : ∀ t, x.job t = none) : Recorded x st :=
  fun t ht => absurd (h t) ht

theorem PartState.close_job {x : PartState} (h : ∀ t, x.job t ≠ none → x.handle = some t) (t : ℕ) :
    x.close.job t = none := by
  by_contra ht
  cases hh : x.handle with
  | none =>
    rw [PartState.close, hh] at ht
    have := h t ht
    rw [hh] at this
    cases this
  | some u =>
    simp only [PartState.close, hh] at ht
    by_cases htu : t = u
    · rw [htu, Function.update_self] at ht
      exact ht rfl
    · rw [Function.update_of_ne htu] at ht
      have := h t ht
      rw [hh, Option.some.injEq] at this
      exact htu this.symm

@[simp] theorem PartState.close_running (x : PartState) : x.close.running = x.running := by
  rw [PartState.close]
  cases x.handle <;> rfl

theorem PartStep.keeps {x x' : PartState} {st st' : Stage} (hs : PartStep x st x' st') (hk : Knows x st)
    (hr : Recorded x st) : Knows x' st' ∧ Recorded x' st' := by
  have hclear : st.server = false → x.running = false → ∀ t, x.job t = none := fun hst hrun t => by
    by_contra ht
    rcases hr t ht with ⟨-, h⟩ | h
    · rw [hrun] at h
      cases h
    · rw [hst] at h
      cases h
  have hcur : st.server = false → ∀ t, x.job t ≠ none → x.handle = some t := fun hst t ht => by
    rcases hr t ht with ⟨h, -⟩ | h
    · exact h
    · rw [hst] at h
      cases h
  cases hs with
  | idle => exact ⟨hk, hr⟩
  | startTest h => exact ⟨hclear rfl h, hr⟩
  | flag => exact ⟨⟨rfl, hk⟩, .of_none _ hk⟩
  | create j =>
    refine ⟨trivial, fun t ht => .inl ⟨?_, hk.1⟩⟩
    by_contra hne
    have htc : t ≠ x.created := fun h => hne (congrArg some h.symm)
    simp only [PartState.create, Function.update_of_ne htc] at ht
    exact ht (hk.2 t)
  | createFails => exact ⟨hk.2, hr⟩
  | unset => exact ⟨trivial, .of_none _ hk⟩
  | stopTest h => exact ⟨trivial, hr⟩
  | join h => exact ⟨h, hr⟩
  | joinNone h =>
    have hn : ∀ t, x.job t = none := fun t => by
      by_contra ht
      have := hcur rfl t ht
      rw [h] at this
      cases this
    exact ⟨hn, .of_none _ hn⟩
  | @joined u h =>
    have hn : ∀ t, x.job t = none := fun t => by
      by_contra ht
      have hh : x.handle = some u := hk
      have := hcur rfl t ht
      rw [hh, Option.some.injEq] at this
      exact ht (this ▸ h)
    exact ⟨hn, .of_none _ hn⟩
  | clear => exact ⟨trivial, .of_none _ hk⟩
  | bindTest h => exact ⟨hclear rfl h, hr⟩
  | bind =>
    refine ⟨fun u hu => ?_, fun _ _ => .inr rfl⟩
    by_contra hne
    simp only [PartState.bind, Function.update_of_ne hne] at hu
    exact hu (hk u)
  | bindFails => exact ⟨hk, hr⟩
  | @store u => exact ⟨fun t ht => congrArg some (hk t ht).symm, fun _ _ => .inr rfl⟩
  | announce => exact ⟨trivial, fun t ht => .inl ⟨hk t ht, rfl⟩⟩
  | stopServer => exact ⟨hcur rfl, fun _ _ => .inr rfl⟩
  | close =>
    have hn := PartState.close_job hk
    exact ⟨hn, .of_none _ hn⟩
  | drop => exact ⟨trivial, .of_none _ hk⟩
  | undoClear => exact ⟨hk, .of_none _ hk⟩
  | undoClose =>
    have hn := PartState.close_job fun t ht => absurd (hk t) ht
    exact ⟨hn, .of_none _ hn⟩
  | undoDrop => exact ⟨trivial, .of_none _ hk⟩

/-- **The invariant of a part**: one thread at most is past its test, and it knows what it needs. -/
structure PartInv (x : PartState) (σ : ℕ → Stage) : Prop where
  alone : ∀ i j, σ i ≠ .out → σ j ≠ .out → i = j
  knows : ∀ j, Knows x (σ j)
  recorded : ∀ t, x.job t ≠ none → (x.handle = some t ∧ x.running = true) ∨ ∃ j, (σ j).server = true

/-- A statement keeps the invariant when a thread passes a test only while no other one is past its. -/
theorem PartInv.step {x x' : PartState} {σ : ℕ → Stage} {i : ℕ} {st : Stage} (h : PartInv x σ)
    (hs : PartStep x (σ i) x' st) (hg : σ i = .out → st ≠ .out → ∀ j, j ≠ i → σ j = .out) :
    PartInv x' (Function.update σ i st) := by
  by_cases hidle : σ i = .out ∧ st = .out
  · -- the only step from outside to outside does nothing
    obtain ⟨hi, rfl⟩ := hidle
    rw [hi] at hs
    cases hs
    rwa [← hi, Function.update_eq_self]
  · have hout : ∀ j, j ≠ i → σ j = .out := fun j hj => by
      by_cases hi : σ i = .out
      · exact hg hi (fun hst => hidle ⟨hi, hst⟩) j hj
      · by_contra hjo
        exact hj (h.alone j i hjo hi)
    have hrec : Recorded x (σ i) := fun t ht => by
      rcases h.recorded t ht with hc | ⟨j, hj⟩
      · exact .inl hc
      · by_cases hji : j = i
        · exact .inr (hji ▸ hj)
        · rw [hout j hji] at hj
          cases hj
    obtain ⟨hk, hr⟩ := hs.keeps (h.knows i) hrec
    have hin : ∀ j, Function.update σ i st j ≠ .out → j = i := fun j hj => by
      by_contra hji
      rw [Function.update_of_ne hji] at hj
      exact hj (hout j hji)
    refine ⟨fun j k hj hk => (hin j hj).trans (hin k hk).symm, fun j => ?_, fun t ht => ?_⟩
    · by_cases hji : j = i
      · rw [hji, Function.update_self]
        exact hk
      · rw [Function.update_of_ne hji, hout j hji]
        trivial
    · rcases hr t ht with hc | hsv
      · exact .inl hc
      · exact .inr ⟨i, by rw [Function.update_self]; exact hsv⟩

theorem PartInv.exit {x : PartState} {σ : ℕ → Stage} (h : PartInv x σ) (hn : ∀ j, (σ j).server = false)
    {t : ℕ} (ht : x.job t ≠ none) :
    PartInv (x.exited t) σ := by
  have hcur : ∀ u, x.job u ≠ none → x.handle = some u := fun u hu => by
    rcases h.recorded u hu with ⟨hc, -⟩ | ⟨j, hj⟩
    · exact hc
    · rw [hn j] at hj
      cases hj
  have hnone : ∀ u, Function.update x.job t none u = none := fun u => by
    by_cases hut : u = t
    · rw [hut, Function.update_self]
    · rw [Function.update_of_ne hut]
      by_contra hu
      exact hut (Option.some.inj ((hcur u hu).symm.trans (hcur t ht)))
  refine ⟨h.alone, fun j => ?_, fun u hu => absurd (hnone u) hu⟩
  have hk := h.knows j
  have hs := hn j
  cases hst : σ j <;> rw [hst] at hk hs
  case out | join => trivial
  case flag | unset | clear | bind | drop | undo => exact hnone
  case create => exact absurd (hk.2 t) ht
  case joining u => exact hk
  case store | announce | close => cases hs

/-! ### What brings up a part -/

/-- The effect brings up the part. -/
def Act.acquires (p : Part) : Act → Bool
  | .create q _ => q = p
  | .bind => p = .protect
  | _ => false

/-- Past the test of `nativeLibsLoaded`. -/
def Pc.pastLibs : Pc → Bool
  | .start _ _ c => c ≠ .libs
  | .stopLibs _ => false
  | pc => pc.inEngine

/-- Without the native libraries nothing is started. -/
structure Loaded (env : Env) (s : State) : Prop where
  past : ∀ j, (s.threads j).pc.pastLibs = true → env.nativeLibsLoaded = true
  job : ∀ p t, (s.parts p).job t ≠ none → env.nativeLibsLoaded = true

theorem Site.pastLibs_started (b : Bool) (site : Site) : (site.started b).pastLibs = false := by
  cases site <;> rfl

theorem Site.pastLibs_stopped (site : Site) : site.stopped.pastLibs = false := by
  cases site <;> rfl

theorem Site.pastLibs_resume (site : Site) : site.resume.pastLibs = false := by
  cases site <;> rfl

theorem code_pastLibs (h : code env s i pc o = some (a, pc')) (h' : pc'.pastLibs = true) :
    pc.pastLibs = true ∨ env.nativeLibsLoaded = true := by
  revert h
  cases pc with
  | ended => intro h; cases h
  | onStart c =>
    change OnStart.code s i c o = _ → _
    fun_cases OnStart.code s i c o <;> intro h <;> cases h <;> cases h'
  | stopVpn c =>
    change StopVpn.code s i c o = _ → _
    fun_cases StopVpn.code s i c o <;> intro h <;> cases h <;> cases h'
  | runVpn c =>
    change RunVpn.code env s i c o = _ → _
    fun_cases RunVpn.code env s i c o <;> intro h <;> cases h <;> cases h'
  | asn c =>
    change AsnAutoDetect.code s i c o = _ → _
    fun_cases AsnAutoDetect.code s i c o <;> intro h <;> cases h <;> cases h'
  | monitor w c =>
    change PresetMonitor.code s i w c o = _ → _
    fun_cases PresetMonitor.code s i w c o <;> intro h <;> cases h <;> cases h'
  | restart site c =>
    change Restart.code s i site c o = _ → _
    fun_cases Restart.code s i site c o <;> intro h <;> cases h <;>
      first | cases h' | (rw [Site.pastLibs_resume] at h'; cases h')
  | start site b c =>
    change Start.code env s site b c o = _ → _
    fun_cases Start.code env s site b c o <;> intro h <;> cases h <;> try exact .inl rfl
    · exact .inr ‹_›
    · rw [Site.pastLibs_started] at h'
      cases h'
  | stopLibs site =>
    change stopLibs env site o = _ → _
    fun_cases stopLibs env site o <;> intro h <;> cases h
    · exact .inr ‹_›
    · rw [Site.pastLibs_stopped] at h'
      cases h'
  | _ => exact fun _ => .inl rfl

theorem acquires_of_job {x : PartState} {t : ℕ} (h : (a.onPart p x).job t ≠ none) :
    x.job t ≠ none ∨ a.acquires p = true := by
  cases a with
  | setFlag q b =>
    simp only [Act.onPart] at h
    split at h <;> exact .inl h
  | create q b =>
    simp only [Act.onPart] at h
    split at h
    · rename_i hq
      exact .inr (by simpa [Act.acquires] using hq)
    · exact .inl h
  | bind =>
    simp only [Act.onPart] at h
    split at h
    · rename_i hq
      exact .inr (by simpa [Act.acquires] using hq)
    · exact .inl h
  | setServer u =>
    simp only [Act.onPart] at h
    split at h <;> exact .inl h
  | closeServer =>
    simp only [Act.onPart] at h
    split at h
    · rw [PartState.close] at h
      cases hh : x.handle with
      | none =>
        rw [hh] at h
        exact .inl h
      | some u =>
        rw [hh] at h
        by_cases htu : t = u
        · simp [htu] at h
        · simp only [Function.update_of_ne htu] at h
          exact .inl h
    · exact .inl h
  | _ => exact .inl h

theorem stage_of_acquires (h : code env s i pc o = some (a, pc')) (ha : a.acquires p = true) :
    pc.stage p = .create ∨ pc.stage p = .bind := by
  revert h
  cases pc with
  | ended => intro h; cases h
  | onStart c =>
    change OnStart.code s i c o = _ → _
    fun_cases OnStart.code s i c o <;> intro h <;> cases h <;> cases ha
  | stopVpn c =>
    change StopVpn.code s i c o = _ → _
    fun_cases StopVpn.code s i c o <;> intro h <;> cases h <;> cases ha
  | runVpn c =>
    change RunVpn.code env s i c o = _ → _
    fun_cases RunVpn.code env s i c o <;> intro h <;> cases h <;> cases ha
  | asn c =>
    change AsnAutoDetect.code s i c o = _ → _
    fun_cases AsnAutoDetect.code s i c o <;> intro h <;> cases h <;> cases ha
  | monitor w c =>
    change PresetMonitor.code s i w c o = _ → _
    fun_cases PresetMonitor.code s i w c o <;> intro h <;> cases h <;> cases ha
  | restart site c =>
    change Restart.code s i site c o = _ → _
    fun_cases Restart.code s i site c o <;> intro h <;> cases h <;> cases ha
  | start site b c =>
    change Start.code env s site b c o = _ → _
    cases p <;> fun_cases Start.code env s site b c o <;> intro h <;> cases h <;>
      first | exact .inl rfl | exact .inr rfl | cases ha
  | stopLibs site =>
    change stopLibs env site o = _ → _
    fun_cases stopLibs env site o <;> intro h <;> cases h <;> cases ha
  | stopTun2socks site c =>
    change Stop.code s _ _ _ c o = _ → _
    fun_cases Stop.code s .tun2socks (.stopTun2socks site) (.stopCiadpi site .test) c o <;> intro h <;>
      cases h <;> cases ha
  | stopCiadpi site c =>
    change Stop.code s _ _ _ c o = _ → _
    fun_cases Stop.code s .ciadpi (.stopCiadpi site) (.stopProtect site .clear) c o <;> intro h <;>
      cases h <;> cases ha
  | stopProtect site c =>
    change StopServer.code _ _ c o = _ → _
    fun_cases StopServer.code (.stopProtect site) site.stopped c o <;> intro h <;> cases h <;> cases ha
  | undoCiadpi site c =>
    change Stop.code s _ _ _ c o = _ → _
    fun_cases Stop.code s .ciadpi (.undoCiadpi site) (site.started false) c o <;> intro h <;> cases h <;>
      cases ha
  | undoProtect site b c =>
    change StopServer.code _ _ c o = _ → _
    fun_cases StopServer.code (.undoProtect site b) (.start site b (.ciadpiTest false)) c o <;> intro h <;>
      cases h <;> cases ha

theorem pastLibs_of_stage (h : pc.stage p ≠ .out) : pc.pastLibs = true := by
  cases pc with
  | start site b c =>
    cases c with
    | libs => exact absurd rfl h
    | _ => rfl
  | ended | onStart | stopVpn | runVpn | asn | monitor | restart | stopLibs => exact absurd rfl h
  | _ => rfl

theorem Loaded.after (h : Loaded env s) (hf : Fresh s) (hc : code env s i (s.threads i).pc o = some (a, pc)) :
    Loaded env (after s i a pc) := by
  refine ⟨fun j hj => ?_, fun p t ht => ?_⟩
  · rcases after_cases hf (pc_ne_ended hc) a pc j with ⟨rfl, he⟩ | ⟨q, ha, -, he⟩ | ⟨-, he⟩
    · rw [he] at hj
      rcases code_pastLibs hc hj with hp | hp
      · exact h.past j hp
      · exact hp
    · rw [he] at hj
      simp only at hj
      rcases code_spawns hc ha with ⟨-, rfl, -⟩ | ⟨-, rfl, -⟩ | ⟨b, -, rfl, -⟩ | ⟨b, -, rfl, -⟩ <;> cases hj
    · rw [he] at hj
      exact h.past j hj
  · rcases acquires_of_job ht with ht | ha
    · exact h.job p t ht
    · refine h.past i (pastLibs_of_stage (p := p) ?_)
      rcases stage_of_acquires hc ha with hst | hst <;> rw [hst] <;> simp

theorem exited_job {t u : ℕ} {r : Part} (h : ((s.setPart r ((s.parts r).exited t)).parts p).job u ≠ none) :
    (s.parts p).job u ≠ none := by
  by_cases hp : p = r
  · subst hp
    simp only [State.setPart, Function.update_self, PartState.exited] at h
    by_cases hut : u = t
    · simp [hut] at h
    · rwa [Function.update_of_ne hut] at h
  · simpa only [State.setPart, Function.update_of_ne hp] using h

theorem exited_handle (t : ℕ) (r : Part) :
    ((s.setPart r ((s.parts r).exited t)).parts p).handle = (s.parts p).handle := by
  by_cases hp : p = r
  · subst hp
    simp only [State.setPart, Function.update_self, PartState.exited]
  · simp only [State.setPart, Function.update_of_ne hp]

theorem Loaded.step {l : Label} (h : Loaded env s) (hf : Fresh s) (hs : step env s l = some s') :
    Loaded env s' := by
  rcases step_cases hs with ⟨c, -, -, rfl⟩ | ⟨i, o, a, pc, -, hc, rfl⟩ | ⟨r, t, -, -, -, rfl⟩
  · refine ⟨fun j hj => ?_, h.job⟩
    rcases delivered_threads s c _ j with ⟨-, he⟩ | ⟨-, he⟩
    · rw [he] at hj
      cases c <;> cases hj
    · rw [he] at hj
      exact h.past j hj
  · exact h.after hf hc
  · exact ⟨h.past, fun p u hu => h.job p u (exited_job hu)⟩

theorem loaded_of_reachable {guard : State → Label → Prop}
    (h : Transition.Reachable (step env) init guard s) :
    Loaded env s := by
  refine h.invariant ⟨fun _ hj => ?_, fun _ _ ht => absurd rfl ht⟩ fun _ _ _ hr hl _ hs =>
    hl.step (fresh_of_reachable hr) hs
  cases hj

end BypassVpn.Service
