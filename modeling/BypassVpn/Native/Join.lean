import BypassVpn.Native.Engine

/-!
# Who joins an engine thread

The handle of an engine thread lives in `g_thread` alone, and only `stop` passes it to `pthread_join`.
A thread that ends by itself clears `g_running`, and the next `stop` does not join it.

* `History`, `record`: the joins made so far; `traced`: the engine with its history.
* `JoinedOnce`: what is promised; `Paired`: the calls do not overlap, and no `start` comes while the last
  thread is not joined.
* `JoinInv`, with one lemma for each kind of step, and **`paired_joinedOnce`**.
-/

namespace BypassVpn.Native

open Transition

/-- The joins of the run so far. -/
structure History where
  /-- How often each thread's handle was passed to `pthread_join`. -/
  joins : ℕ → ℕ := fun _ => 0
  /-- The threads for which `pthread_join` has returned. -/
  joined : ℕ → Bool := fun _ => false
  /-- `pthread_join(g_thread, …)` before any thread was created. -/
  early : Bool := false
  /-- `pthread_create(&g_thread, …)` over the handle of a thread that was not joined. -/
  overwritten : Bool := false

/-- What a step adds to the history. -/
def History.record (h : History) (s : State) : Label → History
  | .join _ =>
    match s.gThread with
    | some t => { h with joins := Function.update h.joins t (h.joins t + 1) }
    | none => { h with early := true }
  | .joinReturns i =>
    match s.callers i with
    | .joining t => { h with joined := Function.update h.joined t true }
    | _ => h
  | .create _ true =>
    { h with overwritten := h.overwritten || s.gThread.any fun t => !h.joined t }
  | _ => h

/-- One step of the engine with its history. -/
def traced (e : Engine) (x : State × History) (l : Label) : Option (State × History) :=
  (step e x.1 l).map fun s => (s, x.2.record x.1 l)

/-- What is promised of the joins. -/
structure JoinedOnce (x : State × History) : Prop where
  /-- At most one engine thread exists. -/
  single : ∀ t u, (x.1.threads t).phase ≠ .ended → (x.1.threads u).phase ≠ .ended → t = u
  once : ∀ t, x.2.joins t ≤ 1
  created : x.2.early = false
  kept : x.2.overwritten = false

/-- The thread of `g_thread`, if there is one, has been joined. -/
def AllJoined (s : State) (h : History) : Prop := ∀ t, s.gThread = some t → h.joined t = true

/-- A `start` that finds `g_running` clear and a `stop` that finds it set have no other call beside
them, and that `start` comes after the join of the thread before it. -/
def Paired (x : State × History) : Label → Prop
  | .startCall _ => x.1.gRunning = false → (∀ j, x.1.callers j = .idle) ∧ AllJoined x.1 x.2
  | .stopCall _ => x.1.gRunning = true → ∀ j, x.1.callers j = .idle
  | _ => True

/-! ### The invariant -/

/-- What a caller knows of `g_thread` where it stands. -/
def HandleOf (s : State) (h : History) : Caller → Prop
  | .idle => True
  | .creating => s.gRunning = true ∧ AllJoined s h
  | .configuring | .failing | .joined => AllJoined s h
  | .testing | .signalling | .calling => ∃ t, s.gThread = some t ∧ h.joins t = 0
  | .joining t => s.gThread = some t ∧ h.joins t = 1

/-- What the joins have to do with the threads. -/
structure JoinBase (s : State) (h : History) : Prop where
  current : ∀ t, (s.threads t).phase ≠ .ended → s.gThread = some t
  below : ∀ t, s.gThread = some t → t < s.created
  fresh : ∀ t, s.created ≤ t → h.joins t = 0 ∧ h.joined t = false
  once : ∀ t, h.joins t ≤ 1
  gone : ∀ t, h.joined t = true → (s.threads t).phase = .ended
  early : h.early = false
  kept : h.overwritten = false

/-- Where the flag is set, `g_thread` still has to be joined. -/
def FlagTells (s : State) (h : History) : Prop :=
  s.gRunning = true → ∃ t, s.gThread = some t ∧ h.joins t = 0

/-- What holds in every state of a paired run. -/
structure JoinInv (s : State) (h : History) : Prop extends JoinBase s h where
  solo : ∀ i j, s.callers i ≠ .idle → s.callers j ≠ .idle → i = j
  handle : ∀ i, HandleOf s h (s.callers i)
  between : (∀ i, s.callers i = .idle) → FlagTells s h

theorem joinInv_init (e : Engine) : JoinInv (init e) {} := by
  have hb : ∀ v, JoinBase { chanVar := v } {} := by
    intro v
    constructor <;> simp
  cases e
  · exact { hb 0 with
      solo := by simp [init], handle := by simp [init, HandleOf], between := by simp [FlagTells, init] }
  · exact { hb (-1) with
      solo := by simp [init], handle := by simp [init, HandleOf], between := by simp [FlagTells, init] }

variable {e : Engine} {s s' : State} {h h' : History} {i t : ℕ} {c : Caller}

/-- A step of the engine thread, or of the rest of the process. -/
theorem JoinInv.inside (hi : JoinInv s h) (hflag : s'.gRunning = s.gRunning)
    (hthread : s'.gThread = s.gThread)
    (hcreated : s'.created = s.created) (hcallers : s'.callers = s.callers)
    (hphase : ∀ t, (s.threads t).phase = .ended → (s'.threads t).phase = .ended) : JoinInv s' h where
  solo := by rw [hcallers]; exact hi.solo
  current t ht := by
    rw [hthread]
    exact hi.current t fun h => ht (hphase t h)
  below := by rw [hthread, hcreated]; exact hi.below
  fresh := by rw [hcreated]; exact hi.fresh
  once := hi.once
  gone t ht := hphase t (hi.gone t ht)
  early := hi.early
  kept := hi.kept
  handle k := by
    have hk := hi.handle k
    rw [hcallers]
    cases hc : s.callers k <;> simp only [hc, HandleOf, AllJoined, hflag, hthread] at hk ⊢ <;> exact hk
  between hall := by
    rw [FlagTells, hflag, hthread]
    exact hi.between (hcallers ▸ hall)

theorem JoinInv.others (hi : JoinInv s h) (hne : s.callers i ≠ .idle) : ∀ k, k ≠ i → s.callers k = .idle := by
  intro k hk
  by_contra hn
  exact hk (hi.solo k i hn hne)

theorem JoinBase.inv (hb : JoinBase s' h') (hothers : ∀ k, k ≠ i → s.callers k = .idle)
    (hcallers : s'.callers = Function.update s.callers i c) (hk : HandleOf s' h' c)
    (hbetween : c = .idle → FlagTells s' h') : JoinInv s' h' := by
  have hself : s'.callers i = c := by rw [hcallers, Function.update_self]
  have hother : ∀ k, k ≠ i → s'.callers k = .idle := by
    intro k hki
    rw [hcallers, Function.update_of_ne hki]
    exact hothers k hki
  refine { hb with solo := fun j k hj hk => ?_, handle := fun k => ?_, between := fun hall => ?_ }
  · have hji : j = i := by_contra fun hn => hj (hother j hn)
    have hki : k = i := by_contra fun hn => hk (hother k hn)
    rw [hji, hki]
  · by_cases hki : k = i
    · rw [hki, hself]
      exact hk
    · rw [hother k hki]
      trivial
  · exact hbetween (hself ▸ hall i)

theorem JoinInv.call (hi : JoinInv s h) (hothers : ∀ k, k ≠ i → s.callers k = .idle) (b : Bool)
    (hk : HandleOf { s with gRunning := b } h c) (hb : c = .idle → FlagTells { s with gRunning := b } h) :
    JoinInv { s.setCaller i c with gRunning := b } h :=
  JoinBase.inv ⟨hi.current, hi.below, hi.fresh, hi.once, hi.gone, hi.early, hi.kept⟩ hothers rfl
    (by cases c <;> exact hk) hb

/-- `pthread_join` is called on the handle that a `stop` has found. -/
theorem JoinInv.join (hi : JoinInv s h) (hc : s.callers i = .calling) (ht : s.gThread = some t) :
    JoinInv (s.setCaller i (.joining t)) { h with joins := Function.update h.joins t (h.joins t + 1) } := by
  obtain ⟨u, hu, hzero⟩ : ∃ u, s.gThread = some u ∧ h.joins u = 0 := by simpa [hc, HandleOf] using hi.handle i
  have hut : u = t := Option.some.inj (hu.symm.trans ht)
  subst hut
  have hone : (Function.update h.joins u (h.joins u + 1)) u = 1 := by rw [Function.update_self, hzero]
  refine JoinBase.inv ⟨hi.current, hi.below, fun v hv => ?_, fun v => ?_, hi.gone, hi.early, hi.kept⟩
    (hi.others (by simp [hc])) rfl ⟨ht, hone⟩ (by simp)
  · have hvu : v ≠ u := by
      rintro rfl
      exact absurd (hi.below v ht) (Nat.not_lt.mpr hv)
    simpa [Function.update_of_ne hvu] using hi.fresh v hv
  · by_cases hvu : v = u
    · rw [hvu]
      exact Nat.le_of_eq hone
    · simpa [Function.update_of_ne hvu] using hi.once v

theorem JoinInv.joinReturns (hi : JoinInv s h) (hc : s.callers i = .joining t)
    (he : (s.threads t).phase = .ended) :
    JoinInv (s.setCaller i .joined) { h with joined := Function.update h.joined t true } := by
  have hk : s.gThread = some t ∧ h.joins t = 1 := by simpa [hc, HandleOf] using hi.handle i
  refine JoinBase.inv ⟨hi.current, hi.below, fun v hv => ?_, hi.once, fun v hv => ?_, hi.early, hi.kept⟩
    (hi.others (by simp [hc])) rfl (fun v hv => ?_) (by simp)
  · have hvt : v ≠ t := by
      rintro rfl
      exact absurd (hi.below v hk.1) (Nat.not_lt.mpr hv)
    simpa [Function.update_of_ne hvt] using hi.fresh v hv
  · by_cases hvt : v = t
    · rw [hvt]
      exact he
    · exact hi.gone v (by simpa [Function.update_of_ne hvt] using hv)
  · have hvt : v = t := Option.some.inj (hv.symm.trans hk.1)
    rw [hvt]
    exact Function.update_self ..

theorem JoinBase.ended_of_joined (hb : JoinBase s h) (hall : AllJoined s h) (v : ℕ) :
    (s.threads v).phase = .ended := by
  by_contra hn
  exact hn (hb.gone v (hall v (hb.current v hn)))

/-- `pthread_create` over the handle of a thread that was joined. -/
theorem JoinInv.create (hi : JoinInv s h) (hc : s.callers i = .creating) :
    JoinInv { (s.setThread s.created { phase := .starting }).setCaller i .idle with
      gThread := some s.created, created := s.created + 1 }
      { h with overwritten := h.overwritten || s.gThread.any fun t => !h.joined t } := by
  have hk : s.gRunning = true ∧ AllJoined s h := by simpa [hc, HandleOf] using hi.handle i
  have hended : ∀ v, (s.threads v).phase = .ended := hi.ended_of_joined hk.2
  have hthreads : ∀ v, v ≠ s.created → (Function.update s.threads s.created
      { phase := .starting } v).phase = .ended := by
    intro v hv
    rw [Function.update_of_ne hv]
    exact hended v
  refine JoinBase.inv ⟨fun v hv => ?_, fun v hv => ?_, fun v hv => ?_, hi.once, fun v hv => ?_, hi.early, ?_⟩
    (hi.others (by simp [hc])) rfl trivial fun _ _ => ⟨s.created, rfl, (hi.fresh _ (Nat.le_refl _)).1⟩
  · by_contra hn
    exact hv (hthreads v fun he => hn (by rw [he]))
  · cases hv
    exact Nat.lt_succ_self _
  · exact hi.fresh v (Nat.le_of_succ_le hv)
  · refine hthreads v fun hv' => ?_
    rw [hv', (hi.fresh _ (Nat.le_refl _)).2] at hv
    cases hv
  · rw [hi.kept, Bool.false_or]
    cases hg : s.gThread with
    | none => rfl
    | some t =>
      change (!h.joined t) = false
      rw [hk.2 t hg]
      rfl

theorem ended_setThread {u : ℕ} {p : Phase} (hu : (s.threads u).phase = p) (hne : p ≠ .ended)
    (x : Thread) (v : ℕ)
    (hv : (s.threads v).phase = .ended) : ((s.setThread u x).threads v).phase = .ended := by
  have hvu : v ≠ u := by
    rintro rfl
    exact hne (hu ▸ hv)
  rw [State.setThread]
  simpa [Function.update_of_ne hvu] using hv

/-- A thread clears `g_running`: no call is about to create another one. -/
theorem JoinInv.clears (hi : JoinInv s h) (ht : (s.threads t).phase ≠ .ended) :
    JoinInv { s with gRunning := false } h := by
  refine { hi with handle := fun k => ?_, between := fun _ hf => absurd hf Bool.false_ne_true }
  have hk := hi.handle k
  cases hc : s.callers k with
  | creating =>
    rw [hc] at hk
    exact absurd (hi.ended_of_joined hk.2 t) ht
  | _ =>
    rw [hc] at hk
    exact hk

/-! ### The steps of `start` -/

theorem JoinInv.startCall_step (hi : JoinInv s h) (hg : Paired (s, h) (.startCall i))
    (hs : step e s (.startCall i) = some s') : JoinInv s' h := by
  simp only [step, Option.ite_none_right_eq_some] at hs
  obtain ⟨hc, hs⟩ := hs
  split_ifs at hs with hrun
  · cases hs
    exact hi
  · cases hs
    obtain ⟨hidle, hjoined⟩ := hg (eq_false_of_ne_true hrun)
    exact hi.call (fun k _ => hidle k) s.gRunning hjoined (by simp)

theorem JoinInv.setFlag_step (hi : JoinInv s h) (hs : step e s (.setFlag i) = some s') : JoinInv s' h := by
  simp only [step, Option.ite_none_right_eq_some, Option.some.injEq] at hs
  obtain ⟨hc, rfl⟩ := hs
  have hk := hi.handle i
  rw [hc] at hk
  exact hi.call (hi.others (by simp [hc])) true ⟨rfl, hk⟩ (by simp)

theorem JoinInv.create_step {ok : Bool} (hi : JoinInv s h) (hs : step e s (.create i ok) = some s') :
    JoinInv s' (h.record s (.create i ok)) := by
  simp only [step, Option.ite_none_right_eq_some] at hs
  obtain ⟨hc, hs⟩ := hs
  cases ok with
  | true =>
    cases hs
    exact hi.create hc
  | false =>
    cases hs
    have hk := hi.handle i
    rw [hc] at hk
    exact hi.call (hi.others (by simp [hc])) s.gRunning hk.2 (by simp)

theorem JoinInv.unsetFlag_step (hi : JoinInv s h) (hs : step e s (.unsetFlag i) = some s') : JoinInv s' h := by
  simp only [step, Option.ite_none_right_eq_some, Option.some.injEq] at hs
  obtain ⟨hc, rfl⟩ := hs
  exact hi.call (hi.others (by simp [hc])) false trivial fun _ hf => absurd hf Bool.false_ne_true

/-! ### The steps of `stop` -/

theorem JoinInv.stopCall_step (hi : JoinInv s h) (hg : Paired (s, h) (.stopCall i))
    (hs : step e s (.stopCall i) = some s') : JoinInv s' h := by
  simp only [step, Option.ite_none_right_eq_some] at hs
  obtain ⟨hc, hs⟩ := hs
  split_ifs at hs with hrun
  · cases hs
    have hidle := hg hrun
    exact hi.call (fun k _ => hidle k) s.gRunning (hi.between hidle hrun) (by simp)
  · cases hs
    exact hi

theorem JoinInv.testChannel_step (hi : JoinInv s h) (hs : step e s (.testChannel i) = some s') :
    JoinInv s' h := by
  simp only [step, Option.ite_none_right_eq_some, Option.some.injEq] at hs
  obtain ⟨hc, rfl⟩ := hs
  have hk := hi.handle i
  rw [hc] at hk
  exact hi.call (hi.others (by simp [hc])) s.gRunning (by split_ifs <;> exact hk) (by split_ifs <;> simp)

/-- The signal reaches a thread or goes astray; the handle stays what it was. -/
theorem JoinInv.signal_step (hi : JoinInv s h) (hs : step e s (.signal i) = some s') : JoinInv s' h := by
  simp only [step, Option.ite_none_right_eq_some] at hs
  obtain ⟨hc, hs⟩ := hs
  have hk := hi.handle i
  rw [hc] at hk
  have hcalls : ∀ s1 : State, JoinInv s1 h → s1.callers = s.callers → s1.gThread = s.gThread →
      JoinInv (s1.setCaller i .calling) h := by
    intro s1 h1 hcallers hthread
    refine h1.call (h1.others (by simp [hcallers, hc])) s1.gRunning ?_ (by simp)
    change ∃ t, s1.gThread = some t ∧ h.joins t = 0
    rw [hthread]
    exact hk
  split at hs
  · next t ht =>
    cases hs
    refine hcalls ({ s.setThread t { s.threads t with signalled := true } with
      misfired := s.misfired || decide (s.gThread ≠ some t) })
        (hi.inside rfl rfl rfl rfl fun v hv => ?_) rfl rfl
    by_cases hvt : v = t
    · subst hvt
      simpa [State.setThread] using hv
    · simpa [State.setThread, Function.update_of_ne hvt] using hv
  · cases hs
    exact hcalls { s with misfired := true } (hi.inside rfl rfl rfl rfl fun v hv => hv) rfl rfl

theorem JoinInv.join_step (hi : JoinInv s h) (hs : step e s (.join i) = some s') :
    JoinInv s' (h.record s (.join i)) := by
  simp only [step, Option.ite_none_right_eq_some] at hs
  obtain ⟨hc, hs⟩ := hs
  have hk := hi.handle i
  rw [hc] at hk
  obtain ⟨t, ht, -⟩ := hk
  simp only [ht] at hs
  cases hs
  simp only [History.record, ht]
  exact hi.join hc ht

theorem JoinInv.joinReturns_step (hi : JoinInv s h) (hs : step e s (.joinReturns i) = some s') :
    JoinInv s' (h.record s (.joinReturns i)) := by
  simp only [step] at hs
  cases hc : s.callers i with
  | joining t =>
    simp only [hc, Option.ite_none_right_eq_some, Option.some.injEq] at hs
    obtain ⟨he, rfl⟩ := hs
    simp only [History.record, hc]
    exact hi.joinReturns hc he
  | _ => simp [hc] at hs

theorem JoinInv.clearFlag_step (hi : JoinInv s h) (hs : step e s (.clearFlag i) = some s') : JoinInv s' h := by
  simp only [step, Option.ite_none_right_eq_some, Option.some.injEq] at hs
  obtain ⟨hc, rfl⟩ := hs
  exact hi.call (hi.others (by simp [hc])) false trivial fun _ hf => absurd hf Bool.false_ne_true

/-! ### The steps of the engine thread and of the rest of the process -/

theorem JoinInv.openChannel_step {d : Option ℕ} (hi : JoinInv s h)
    (hs : step e s (.openChannel t d) = some s') : JoinInv s' h := by
  simp only [step, Option.ite_none_right_eq_some] at hs
  obtain ⟨hp, hs⟩ := hs
  cases d with
  | none =>
    cases hs
    exact hi.inside rfl rfl rfl rfl (ended_setThread hp (by simp) _)
  | some d =>
    simp only [Option.ite_none_right_eq_some] at hs
    obtain ⟨hfd, hs⟩ := hs
    cases e <;> cases hs <;> exact hi.inside rfl rfl rfl rfl (ended_setThread hp (by simp) _)

theorem JoinInv.reset_step (hi : JoinInv s h) (hs : step e s (.reset t) = some s') : JoinInv s' h := by
  simp only [step, Option.ite_none_right_eq_some] at hs
  obtain ⟨hp, hs⟩ := hs
  cases e <;> cases hs <;> exact hi.inside rfl rfl rfl rfl (ended_setThread hp (by simp) _)

theorem JoinInv.clear_step (hi : JoinInv s h) (hs : step e s (.clear t) = some s') : JoinInv s' h := by
  simp only [step, Option.ite_none_right_eq_some, Option.some.injEq] at hs
  obtain ⟨hp, rfl⟩ := hs
  have hmoved : JoinInv (s.setPhase t .cleared) h :=
    hi.inside rfl rfl rfl rfl (ended_setThread hp (by simp) _)
  refine @JoinInv.clears _ _ t hmoved ?_
  simp [State.setPhase, State.setThread]

/-- **One step keeps the invariant** when the calls are paired. -/
theorem traced_inv {x x' : State × History} {l : Label} (hi : JoinInv x.1 x.2) (hg : Paired x l)
    (hs : traced e x l = some x') : JoinInv x'.1 x'.2 := by
  obtain ⟨s, h⟩ := x
  simp only [traced, Option.map_eq_some_iff] at hs
  obtain ⟨s', hs, rfl⟩ := hs
  simp only at hi hs ⊢
  cases l with
  | startCall i => exact hi.startCall_step hg hs
  | setFlag i => exact hi.setFlag_step hs
  | create i ok => exact hi.create_step hs
  | unsetFlag i => exact hi.unsetFlag_step hs
  | stopCall i => exact hi.stopCall_step hg hs
  | testChannel i => exact hi.testChannel_step hs
  | signal i => exact hi.signal_step hs
  | join i => exact hi.join_step hs
  | joinReturns i => exact hi.joinReturns_step hs
  | clearFlag i => exact hi.clearFlag_step hs
  | openChannel t d => exact hi.openChannel_step hs
  | reset t => exact hi.reset_step hs
  | clear t => exact hi.clear_step hs
  | publish t | prepare t ok | exit t | close t | finish t =>
    simp only [step, Option.ite_none_right_eq_some, Option.some.injEq] at hs
    obtain ⟨hp, rfl⟩ := hs
    exact hi.inside rfl rfl rfl rfl (ended_setThread hp (by simp) _)
  | envOpen d | envClose d =>
    simp only [step, Option.ite_none_right_eq_some, Option.some.injEq] at hs
    obtain ⟨-, rfl⟩ := hs
    exact hi.inside rfl rfl rfl rfl fun v hv => hv

/-- **Every engine thread is joined exactly once** along every paired run, also where threads end by
themselves: at most one exists at a time, none is joined twice or before it was created, and `g_thread`
is overwritten only after a join. -/
theorem paired_joinedOnce (e : Engine) (x : State × History)
    (hx : Reachable (traced e) (init e, {}) Paired x) : JoinedOnce x := by
  have hi : JoinInv x.1 x.2 :=
    @Reachable.invariant _ _ _ _ _ (fun x : State × History => JoinInv x.1 x.2) (joinInv_init e)
      (fun _ _ _ _ hi hg hs => traced_inv hi hg hs) x hx
  refine ⟨fun t u ht hu => ?_, hi.once, hi.early, hi.kept⟩
  exact Option.some.inj ((hi.current t ht).symm.trans (hi.current u hu))

/-- The first thread is stopped, the second one ends by itself. -/
theorem paired_joinedOnce_startStop :
    ∃ x, Reachable (traced .ciadpi) (init .ciadpi, {}) Paired x ∧ x.2.joins 0 = 1 ∧ x.2.joined 0 = true ∧
      (x.1.threads 1).phase = .ended ∧ x.1.gThread = some 1 ∧ JoinedOnce x := by
  have h0 : Reachable (traced .ciadpi) (init .ciadpi, {}) Paired (init .ciadpi, {}) := .init
  have h1 := h0.next (.startCall 0) (fun _ => ⟨fun _ => rfl, nofun⟩) rfl
  have h2 := h1.next (.setFlag 0) trivial rfl
  have h3 := h2.next (.create 0 true) trivial rfl
  have h4 := h3.next (.openChannel 0 (some 5)) trivial rfl
  have h5 := h4.next (.publish 0) trivial rfl
  have h6 := h5.next (.prepare 0 true) trivial rfl
  have h7 := h6.next (.stopCall 0) (fun _ j => ?_) rfl
  · have h8 := h7.next (.testChannel 0) trivial rfl
    have h9 := h8.next (.signal 0) trivial rfl
    have h10 := h9.next (.join 0) trivial rfl
    have h11 := h10.next (.exit 0) trivial rfl
    have h12 := h11.next (.close 0) trivial rfl
    have h13 := h12.next (.reset 0) trivial rfl
    have h14 := h13.next (.clear 0) trivial rfl
    have h15 := h14.next (.finish 0) trivial rfl
    have h16 := h15.next (.joinReturns 0) trivial rfl
    have h17 := h16.next (.clearFlag 0) trivial rfl
    have h18 := h17.next (.startCall 0) (fun _ => ⟨fun j => ?_, fun t ht => ?_⟩) rfl
    · have h19 := h18.next (.setFlag 0) trivial rfl
      have h20 := h19.next (.create 0 true) trivial rfl
      have h21 := h20.next (.openChannel 1 none) trivial rfl
      have h22 := h21.next (.clear 1) trivial rfl
      have h23 := h22.next (.finish 1) trivial rfl
      exact ⟨_, h23, rfl, rfl, rfl, rfl, paired_joinedOnce .ciadpi _ h23⟩
    · cases j with
      | zero => rfl
      | succ j => rfl
    · cases ht
      rfl
  · cases j with
    | zero => rfl
    | succ j => rfl

/-- The first thread cannot open its socket and ends; the next start overwrites its handle. -/
theorem handle_overwritten : ¬ ∀ (e : Engine) (x : State × History),
    Reachable (traced e) (init e, {}) anyStep x → JoinedOnce x := by
  intro h
  obtain ⟨x, hx, hf⟩ := reachable_of_run (traced .ciadpi) (init .ciadpi, {}) anyStep_of_true
    [.startCall 0, .setFlag 0, .create 0 true, .openChannel 0 none, .clear 0, .finish 0,
      .startCall 0, .setFlag 0, .create 0 true]
    (fun x => x.2.overwritten) (b := true) (by decide)
  have := (h .ciadpi x hx).kept
  rw [hf] at this
  cases this

end BypassVpn.Native
