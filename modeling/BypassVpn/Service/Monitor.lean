import Mathlib.Data.List.Basic

/-!
# The preset monitor

The loop of `startPresetMonitor`: a tick every 15 seconds, a connectivity test on some ticks, a
switch to the next preset after repeated failure.

* `Tick`, `MonitorState`, `needTest`, `monitorTick`: one round of the loop; `events`: a run.
* `precedingFailed`: the preceding test, since the last switch, failed; `SwitchesOnRepeatedFailure`:
  a run switches exactly when it should.
* `tests`: which ticks test and with what result, which the inputs decide alone; `OddBlockThenGap`:
  a pattern in it.
* **`switches_iff`**: a run switches exactly when it should unless that pattern occurs, or the counter
  was left over from an earlier run and the first tick is a failed test.
-/

namespace BypassVpn

/-- What one tick of the loop meets. -/
structure Tick where
  /-- `System.currentTimeMillis() - lastPacketTime`. -/
  idleMs : Int
  /-- The result of `testConnectivity`, should it be called. -/
  ok : Bool
  deriving DecidableEq, Repr

/-- The loop variable `idx` and the field `consecutiveFails`. -/
structure MonitorState where
  idx : ℕ := 0
  consecutiveFails : ℕ := 0
  deriving DecidableEq, Repr

/-- What a tick did: its test result, and whether it called `switchToNextPreset`. -/
structure Event where
  test : Option Bool
  switched : Bool
  deriving DecidableEq, Repr

/-- The `idx`-th tick calls `testConnectivity`. -/
def needTest (nativeBuilt : Bool) (idx : ℕ) (t : Tick) : Bool :=
  idx % 4 = 0 || (!nativeBuilt && t.idleMs > 30000)

/-- One round of the loop. -/
def monitorTick (nativeBuilt : Bool) (st : MonitorState) (t : Tick) : MonitorState × Event :=
  let idx := st.idx + 1
  if needTest nativeBuilt idx t then
    if t.ok then (⟨idx, 0⟩, ⟨some true, false⟩)
    else
      let consecutiveFails := st.consecutiveFails + 1
      if consecutiveFails ≥ 2 then (⟨idx, 0⟩, ⟨some false, true⟩)
      else (⟨idx, consecutiveFails⟩, ⟨some false, false⟩)
  else (⟨idx, 0⟩, ⟨none, false⟩)

/-- The events of a run. -/
def events (nativeBuilt : Bool) : MonitorState → List Tick → List Event
  | _, [] => []
  | st, t :: ts =>
    (monitorTick nativeBuilt st t).2 :: events nativeBuilt (monitorTick nativeBuilt st t).1 ts

/-- The last test in `history`, none before the last switch, failed. -/
def precedingFailed (history : List Event) : Bool :=
  match history.reverse.find? fun e => e.test.isSome with
  | some e => e.test = some false && !e.switched
  | none => false

/-- The run that starts with the counter at `c` switches at a tick exactly when that tick's test fails
and the preceding one failed too. -/
def SwitchesOnRepeatedFailure (nativeBuilt : Bool) (c : ℕ) (ts : List Tick) : Prop :=
  ∀ i e, (events nativeBuilt ⟨0, c⟩ ts)[i]? = some e →
    (e.switched = true ↔
      e.test = some false ∧ precedingFailed ((events nativeBuilt ⟨0, c⟩ ts).take i) = true)

/-! ### What the inputs decide -/

/-- The test results of a run, `none` for a tick without test; `idx` ticks came before. -/
def tests (nativeBuilt : Bool) : ℕ → List Tick → List (Option Bool)
  | _, [] => []
  | idx, t :: ts =>
    (if needTest nativeBuilt (idx + 1) t then some t.ok else none) :: tests nativeBuilt (idx + 1) ts

/-- Somewhere an odd number of failed tests on adjacent ticks is followed by ticks without test and
then by another failed test. -/
def OddBlockThenGap (l : List (Option Bool)) : Prop :=
  ∃ front k m back, l = front ++ (List.replicate k (some false) ++
    (List.replicate m none ++ some false :: back)) ∧
    k % 2 = 1 ∧ 0 < m ∧ front.getLast? ≠ some (some false)

/-! ### The counter against the history -/

/-- One round, by its test result: the new counter and whether it switches. -/
def count (c : ℕ) : Option Bool → ℕ × Bool
  | some false => if c + 1 ≥ 2 then (0, true) else (c + 1, false)
  | _ => (0, false)

/-- The events of a run, by its test results. -/
def eventsOf : ℕ → List (Option Bool) → List Event
  | _, [] => []
  | c, o :: l => ⟨o, (count c o).2⟩ :: eventsOf (count c o).1 l

theorem events_eq (nativeBuilt : Bool) (st : MonitorState) (ts : List Tick) :
    events nativeBuilt st ts = eventsOf st.consecutiveFails (tests nativeBuilt st.idx ts) := by
  induction ts generalizing st with
  | nil => rfl
  | cons t ts ih =>
    rw [events, tests, eventsOf, ih]
    by_cases hn : needTest nativeBuilt (st.idx + 1) t
    · by_cases hok : t.ok
      · simp [monitorTick, hn, hok, count]
      · by_cases hc : st.consecutiveFails + 1 ≥ 2
        · simp [monitorTick, hn, hok, count, hc]
        · simp [monitorTick, hn, hok, count, hc]
    · simp [monitorTick, hn, count]

theorem precedingFailed_append (history : List Event) (e : Event) :
    precedingFailed (history ++ [e]) =
      match e.test with
      | none => precedingFailed history
      | some ok => !ok && !e.switched := by
  rw [precedingFailed, List.reverse_append, List.reverse_singleton, List.singleton_append]
  rcases e with ⟨_ | ok, sw⟩
  · rfl
  · cases ok <;> rfl

/-- From the counter `c`, with the preceding test failed or not, every tick of `l` switches when it
should. -/
def Agrees : ℕ → Bool → List (Option Bool) → Prop
  | _, _, [] => True
  | _, a, none :: l => Agrees 0 a l
  | _, _, some true :: l => Agrees 0 false l
  | c, a, some false :: l =>
    (c + 1 ≥ 2 ↔ a = true) ∧ Agrees (count c (some false)).1 (!(count c (some false)).2) l

theorem agrees_cons (c : ℕ) (a : Bool) (o : Option Bool) (l : List (Option Bool)) :
    Agrees c a (o :: l) ↔ ((count c o).2 = true ↔ o = some false ∧ a = true) ∧
      Agrees (count c o).1 (match o with | none => a | some ok => !ok && !(count c o).2) l := by
  rcases o with _ | _ | _
  · simp [Agrees, count]
  · rw [Agrees]
    by_cases h : c + 1 ≥ 2 <;> simp [count, h]
  · simp [Agrees, count]

theorem agrees_iff (c : ℕ) (l : List (Option Bool)) (history : List Event) :
    Agrees c (precedingFailed history) l ↔
      ∀ i e, (eventsOf c l)[i]? = some e → (e.switched = true ↔
        e.test = some false ∧ precedingFailed (history ++ (eventsOf c l).take i) = true) := by
  induction l generalizing c history with
  | nil => simp [Agrees, eventsOf]
  | cons o l ih =>
    have hhist := precedingFailed_append history ⟨o, (count c o).2⟩
    rw [agrees_cons, eventsOf]
    simp only at hhist
    rw [← hhist, ih]
    constructor
    · rintro ⟨h0, hs⟩ i e he
      cases i with
      | zero =>
        rw [List.getElem?_cons_zero, Option.some.injEq] at he
        subst he
        rw [List.take_zero, List.append_nil]
        exact h0
      | succ i =>
        rw [List.getElem?_cons_succ] at he
        rw [List.take_succ_cons, List.append_cons]
        exact hs i e he
    · intro h
      refine ⟨?_, fun i e he => ?_⟩
      · have h0 := h 0 _ rfl
        rwa [List.take_zero, List.append_nil] at h0
      · have hs := h (i + 1) e he
        rwa [List.take_succ_cons, List.append_cons] at hs

/-! ### The pattern -/

section Pattern

variable {l : List (Option Bool)}

theorem oddBlockThenGap_cons {o : Option Bool} (ho : o ≠ some false) :
    OddBlockThenGap (o :: l) ↔ OddBlockThenGap l := by
  constructor
  · rintro ⟨front, k, m, back, hl, hk, hm, hf⟩
    cases front with
    | nil =>
      obtain ⟨k, rfl⟩ : ∃ j, k = j + 1 := ⟨k - 1, by omega⟩
      rw [List.nil_append, List.replicate_succ, List.cons_append] at hl
      exact absurd (List.cons.inj hl).1 ho
    | cons x front =>
      rw [List.cons_append] at hl
      refine ⟨front, k, m, back, (List.cons.inj hl).2, hk, hm, fun h => hf ?_⟩
      rw [List.getLast?_cons, h]
      rfl
  · rintro ⟨front, k, m, back, rfl, hk, hm, hf⟩
    refine ⟨o :: front, k, m, back, rfl, hk, hm, fun h => ?_⟩
    rw [List.getLast?_cons] at h
    cases hlast : front.getLast? with
    | none =>
      rw [hlast] at h
      exact ho (Option.some.inj h)
    | some x =>
      rw [hlast] at h
      exact hf (hlast.trans h)

/-- A single failed test starts a pattern when nothing but ticks without test separates it from the
next failed one. -/
theorem oddBlockThenGap_fail {o : Option Bool} (ho : o ≠ some false) :
    OddBlockThenGap (some false :: o :: l) ↔
      (o = none ∧ ∃ m back, l = List.replicate m none ++ some false :: back) ∨ OddBlockThenGap l := by
  constructor
  · rintro ⟨front, k, m, back, hl, hk, hm, hf⟩
    obtain ⟨m, rfl⟩ : ∃ j, m = j + 1 := ⟨m - 1, by omega⟩
    rcases front with _ | ⟨x, _ | ⟨y, front⟩⟩
    · obtain ⟨k, rfl⟩ : ∃ j, k = j + 1 := ⟨k - 1, by omega⟩
      rw [List.nil_append, List.replicate_succ, List.cons_append] at hl
      have hl := (List.cons.inj hl).2
      cases k with
      | zero =>
        rw [List.replicate_zero, List.nil_append, List.replicate_succ, List.cons_append] at hl
        exact .inl ⟨(List.cons.inj hl).1, m, back, (List.cons.inj hl).2⟩
      | succ k =>
        rw [List.replicate_succ, List.cons_append] at hl
        exact absurd (List.cons.inj hl).1 ho
    · rw [List.cons_append] at hl
      exact absurd (congrArg some (List.cons.inj hl).1.symm) hf
    · rw [List.cons_append, List.cons_append] at hl
      have hl := (List.cons.inj (List.cons.inj hl).2).2
      refine .inr ⟨front, k, m + 1, back, hl, hk, hm, fun h => hf ?_⟩
      rw [List.getLast?_cons, List.getLast?_cons, h]
      rfl
  · rintro (⟨rfl, m, back, rfl⟩ | ⟨front, k, m, back, rfl, hk, hm, hf⟩)
    · exact ⟨[], 1, m + 1, back, rfl, rfl, by omega, by simp⟩
    · refine ⟨some false :: o :: front, k, m, back, rfl, hk, hm, fun h => ?_⟩
      rw [List.getLast?_cons, List.getLast?_cons] at h
      cases hlast : front.getLast? with
      | none =>
        rw [hlast] at h
        exact ho (Option.some.inj h)
      | some x =>
        rw [hlast] at h
        exact hf (hlast.trans h)

theorem oddBlockThenGap_fail_fail :
    OddBlockThenGap (some false :: some false :: l) ↔ OddBlockThenGap l := by
  constructor
  · rintro ⟨front, k, m, back, hl, hk, hm, hf⟩
    obtain ⟨m, rfl⟩ : ∃ j, m = j + 1 := ⟨m - 1, by omega⟩
    rcases front with _ | ⟨x, _ | ⟨y, front⟩⟩
    · obtain ⟨k, rfl⟩ : ∃ j, k = j + 1 := ⟨k - 1, by omega⟩
      rw [List.nil_append, List.replicate_succ, List.cons_append] at hl
      have hl := (List.cons.inj hl).2
      cases k with
      | zero =>
        rw [List.replicate_zero, List.nil_append, List.replicate_succ, List.cons_append] at hl
        exact absurd (List.cons.inj hl).1 (by simp)
      | succ k =>
        rw [List.replicate_succ, List.cons_append] at hl
        exact ⟨[], k, m + 1, back, (List.cons.inj hl).2, by omega, hm, by simp⟩
    · rw [List.cons_append] at hl
      exact absurd (congrArg some (List.cons.inj hl).1.symm) hf
    · rw [List.cons_append, List.cons_append] at hl
      have hl := (List.cons.inj (List.cons.inj hl).2).2
      refine ⟨front, k, m + 1, back, hl, hk, hm, fun h => hf ?_⟩
      rw [List.getLast?_cons, List.getLast?_cons, h]
      rfl
  · rintro ⟨front, k, m, back, rfl, hk, hm, hf⟩
    cases front with
    | nil => exact ⟨[], k + 2, m, back, rfl, by omega, hm, hf⟩
    | cons x front =>
      refine ⟨some false :: some false :: x :: front, k, m, back, rfl, hk, hm, ?_⟩
      rw [List.getLast?_cons_cons, List.getLast?_cons_cons]
      exact hf

theorem not_oddBlockThenGap_nil : ¬ OddBlockThenGap [] := by
  rintro ⟨front, k, m, back, hl, -⟩
  simp at hl

theorem not_oddBlockThenGap_singleton (o : Option Bool) : ¬ OddBlockThenGap [o] := by
  rintro ⟨front, k, m, back, hl, hk, hm, -⟩
  have := congrArg List.length hl
  simp at this
  omega

end Pattern

/-! ### When the counter is right -/

/-- While the counter was reset behind a failed test, no failed test may come next. -/
theorem agrees_reset (l : List (Option Bool)) :
    Agrees 0 true l ↔ (¬ ∃ m back, l = List.replicate m none ++ some false :: back) ∧ Agrees 0 false l := by
  induction l with
  | nil => simp [Agrees]
  | cons o l ih =>
    rcases o with _ | _ | _
    · rw [Agrees, Agrees, ih]
      refine and_congr_left fun _ => not_congr ⟨?_, ?_⟩
      · rintro ⟨m, back, rfl⟩
        exact ⟨m + 1, back, rfl⟩
      · rintro ⟨m, back, hl⟩
        cases m with
        | zero => simp at hl
        | succ m => exact ⟨m, back, (List.cons.inj hl).2⟩
    · refine iff_of_false (by simp [Agrees]) fun h => h.1 ⟨0, l, rfl⟩
    · refine ⟨fun h => ⟨?_, h⟩, fun h => h.2⟩
      rintro ⟨m, back, hl⟩
      cases m with
      | zero => simp at hl
      | succ m => simp [List.replicate_succ] at hl

/-- **From a fresh counter, every tick is right unless the pattern occurs.** -/
theorem agrees_fresh (l : List (Option Bool)) : Agrees 0 false l ↔ ¬ OddBlockThenGap l := by
  match l with
  | [] => exact iff_of_true trivial not_oddBlockThenGap_nil
  | none :: l => rw [Agrees, agrees_fresh l, oddBlockThenGap_cons (by simp)]
  | some true :: l => rw [Agrees, agrees_fresh l, oddBlockThenGap_cons (by simp)]
  | [some false] => exact iff_of_true (by simp [Agrees]) (not_oddBlockThenGap_singleton _)
  | some false :: some false :: l =>
    rw [oddBlockThenGap_fail_fail, ← agrees_fresh l]
    simp [Agrees, count]
  | some false :: some true :: l =>
    rw [oddBlockThenGap_fail (by simp), not_or, ← agrees_fresh l]
    simp [Agrees]
  | some false :: none :: l =>
    rw [oddBlockThenGap_fail (by simp), not_or, ← agrees_fresh l]
    simp only [true_and]
    rw [← agrees_reset]
    simp [Agrees, count]

theorem agrees_start (c : ℕ) (l : List (Option Bool)) :
    Agrees c false l ↔ Agrees 0 false l ∧ ¬ (0 < c ∧ l.head? = some (some false)) := by
  rcases Nat.eq_zero_or_pos c with rfl | hc
  · simp
  rcases l with _ | ⟨_ | _ | _, l⟩
  · simp [Agrees]
  · simp [Agrees]
  · refine iff_of_false (fun h => ?_) fun h => h.2 ⟨hc, rfl⟩
    have := h.1.mp (by omega)
    simp at this
  · simp [Agrees]

/-- **The monitor switches exactly on repeated failure unless the reset between tests hides it.** The
`else` branch clears the counter on every tick without test, so a failed test is forgotten before the
next one unless they are on adjacent ticks; a counter left over from an earlier run counts as a
failure. -/
theorem switches_iff (nativeBuilt : Bool) (c : ℕ) (ts : List Tick) :
    SwitchesOnRepeatedFailure nativeBuilt c ts ↔
      ¬ OddBlockThenGap (tests nativeBuilt 0 ts) ∧
        ¬ (0 < c ∧ (tests nativeBuilt 0 ts).head? = some (some false)) := by
  have hagree := agrees_iff c (tests nativeBuilt 0 ts) []
  rw [show precedingFailed [] = false from rfl, agrees_start, agrees_fresh] at hagree
  rw [hagree, SwitchesOnRepeatedFailure, events_eq]
  simp only [List.nil_append]

/-- With native tun2socks, two tests in a row fail and no switch happens: eight failing ticks. -/
theorem native_failure_forgotten :
    ¬ ∀ (nativeBuilt : Bool) (c : ℕ) (ts : List Tick), SwitchesOnRepeatedFailure nativeBuilt c ts := by
  intro h
  have h8 := h true 0 (List.replicate 8 ⟨0, false⟩) 7 ⟨some false, false⟩ (by decide)
  exact absurd (h8.mpr (by decide)) (by decide)

end BypassVpn
