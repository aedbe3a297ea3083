import Mathlib.Data.List.Dedup
import Mathlib.Data.List.Induction
import BypassVpn.CrashLog.Native

/-!
# The chain of crash handlers

Every module that is compiled with `crash_handler.c` has its own `g_old_handlers`, `g_have_old` and
`g_installed`. Installing saves the handlers in force, so that the installations of several modules form
a chain.

* `State`, `register`, `crashHandlerInstall`, `next`, `crashSignalHandler`, `deliver`: the modules and
  the kernel.
* `Linked`: following the saved handlers from an action visits the modules of a list, and then the prior
  action.
* `Installed`, `installed_calls`: after any calls the chain holds the modules called, the first one
  last.
* **`deliver_install`**: a signal runs every module once, and then what was in force before.
* `chain_of_starts`: the order of the two libraries.
-/

namespace BypassVpn.CrashLog.Chain

/-- A function pointer in a `struct sigaction`; `NULL` is `SIG_DFL`. `M` are the modules, `F` the
functions outside them. -/
inductive Handler (M F : Type) where
  | SIG_DFL
  | SIG_IGN
  | crashSignalHandler (m : M)
  | function (f : F)

/-- A `struct sigaction`: `sa_handler` and `sa_sigaction` share their storage. -/
structure Sigaction (M F : Type) where
  saHandler : Handler M F
  /-- `SA_SIGINFO` in `sa_flags`. -/
  siginfo : Bool

/-- The actions of the kernel, and the variables of the modules; signals by their numbers. -/
structure State (M F : Type) where
  action : ℕ → Sigaction M F
  gOldHandlers : M → ℕ → Sigaction M F
  gHaveOld : M → ℕ → Bool
  gInstalled : M → Bool

/-- What runs when a signal is delivered. -/
inductive Event (M F : Type) where
  | crashSignalHandler (m : M)
  /-- A function is called, with one argument or with three. -/
  | call (f : F) (siginfo : Bool)
  /-- `signal(sig, SIG_DFL); raise(sig)`, or the kernel's own. -/
  | defaultAction
  /-- A call of the address `SIG_DFL` or `SIG_IGN`. -/
  | invalidCall
  deriving DecidableEq

variable {M F : Type}

/-- `SIG_DFL`. -/
def Handler.isDfl : Handler M F → Bool
  | .SIG_DFL => true
  | _ => false

/-- `SIG_IGN`. -/
def Handler.isIgn : Handler M F → Bool
  | .SIG_IGN => true
  | _ => false

/-- `kSignals`: the signals that the handler is installed for. -/
def kSignals : List ℕ :=
  [Signal.SIGABRT, .SIGSEGV, .SIGBUS, .SIGILL, .SIGFPE, .SIGTRAP].map Signal.number

section Source

variable [DecidableEq M]

/-- `sigaction(sig, &sa, &old)`, and the two assignments behind it. -/
def State.register (s : State M F) (m : M) (sig : ℕ) : State M F :=
  { s with
    action := Function.update s.action sig ⟨.crashSignalHandler m, true⟩
    gOldHandlers := Function.update s.gOldHandlers m (Function.update (s.gOldHandlers m) sig (s.action sig))
    gHaveOld := Function.update s.gHaveOld m (Function.update (s.gHaveOld m) sig true) }

/-- `crash_handler_install`, apart from the log. -/
def crashHandlerInstall (s : State M F) (m : M) : State M F :=
  if s.gInstalled m then s
  else
    let s' := kSignals.foldl (fun s sig => if 64 ≤ sig then s else s.register m sig) s
    { s' with gInstalled := Function.update s'.gInstalled m true }

end Source

/-- What `crash_signal_handler` hands a signal to: a function, called with one argument or with three,
or the default action. -/
def next (s : State M F) (m : M) (sig : ℕ) : Option (Handler M F × Bool) :=
  if sig < 64 && s.gHaveOld m sig then
    let old := s.gOldHandlers m sig
    if old.siginfo && !old.saHandler.isDfl then some (old.saHandler, true)
    else if old.saHandler.isDfl then none
    else if !old.saHandler.isIgn then some (old.saHandler, false)
    else none
  else none

/-- The handlers that a call of `crash_signal_handler` leads to; `none` when `fuel` calls are not
enough. -/
def crashSignalHandler (s : State M F) (sig : ℕ) : ℕ → M → Option (List (Event M F))
  | 0, _ => none
  | fuel + 1, m =>
    let rest : Option (List (Event M F)) :=
      match next s m sig with
      | none => some [.defaultAction]
      | some (.crashSignalHandler m', _) => crashSignalHandler s sig fuel m'
      | some (.function f, siginfo) => some [.call f siginfo]
      | some (.SIG_DFL, _) => some [.invalidCall]
      | some (.SIG_IGN, _) => some [.invalidCall]
    rest.map (.crashSignalHandler m :: ·)

/-- The kernel delivers a signal. -/
def deliver (fuel : ℕ) (s : State M F) (sig : ℕ) : Option (List (Event M F)) :=
  match (s.action sig).saHandler with
  | .SIG_DFL => some [.defaultAction]
  | .SIG_IGN => some []
  | .crashSignalHandler m => crashSignalHandler s sig fuel m
  | .function f => some [.call f (s.action sig).siginfo]

/-! ### Before the first installation -/

/-- The dispositions of a signal. `SIG_DFL` and `SIG_IGN` are values of `sa_handler`, which is used
without `SA_SIGINFO`; `SIG_IGN` with that flag is none of the four, and `next` would hand a signal to it
as to a function. -/
inductive Disposition (F : Type) where
  | default
  | ignored
  | plain (f : F)
  | siginfo (f : F)

/-- A disposition as `sigaction` reads it. -/
def Disposition.toSigaction : Disposition F → Sigaction M F
  | .default => ⟨.SIG_DFL, false⟩
  | .ignored => ⟨.SIG_IGN, false⟩
  | .plain f => ⟨.function f, false⟩
  | .siginfo f => ⟨.function f, true⟩

/-- What a signal comes to that is passed on to a disposition. -/
def Disposition.outcome : Disposition F → Event M F
  | .default => .defaultAction
  | .ignored => .defaultAction
  | .plain f => .call f false
  | .siginfo f => .call f true

/-- The modules have just been loaded. -/
def start (prior : ℕ → Disposition F) : State M F where
  action sig := (prior sig).toSigaction
  gOldHandlers _ _ := ⟨.SIG_DFL, false⟩
  gHaveOld _ _ := false
  gInstalled _ := false

/-- The modules of the calls, the one that was called first last. -/
def chain [DecidableEq M] (calls : List M) : List M := calls.reverse.dedup

/-! ### The chain -/

/-- From `a`, the saved handlers of `sig` lead through the modules `ms` to `prior`. -/
def Linked (s : State M F) (sig : ℕ) (prior : Sigaction M F) : List M → Sigaction M F → Prop
  | [], a => a = prior
  | m :: ms, a =>
    a = ⟨.crashSignalHandler m, true⟩ ∧ s.gHaveOld m sig = true ∧ Linked s sig prior ms (s.gOldHandlers m sig)

theorem Linked.congr {s s' : State M F} {sig : ℕ} {prior : Sigaction M F} {ms : List M} {a : Sigaction M F}
    (h : Linked s sig prior ms a)
    (hsame : ∀ m ∈ ms, s'.gHaveOld m sig = s.gHaveOld m sig ∧ s'.gOldHandlers m sig = s.gOldHandlers m sig) :
    Linked s' sig prior ms a := by
  induction ms generalizing a with
  | nil => exact h
  | cons m ms ih =>
    obtain ⟨ha, hhave, hrest⟩ := h
    obtain ⟨hh, ho⟩ := hsame m List.mem_cons_self
    refine ⟨ha, by rw [hh, hhave], ?_⟩
    rw [ho]
    exact ih hrest fun x hx => hsame x (List.mem_cons_of_mem m hx)

theorem next_of_have {s : State M F} {m : M} {sig : ℕ} (hsig : sig < 64) (hhave : s.gHaveOld m sig = true) :
    next s m sig =
      let old := s.gOldHandlers m sig
      if old.siginfo && !old.saHandler.isDfl then some (old.saHandler, true)
      else if old.saHandler.isDfl then none
      else if !old.saHandler.isIgn then some (old.saHandler, false)
      else none := by
  rw [next, if_pos (by simp [hsig, hhave])]

/-- **A linked chain runs from end to end.** -/
theorem crashSignalHandler_of_linked {s : State M F} {sig : ℕ} (hsig : sig < 64)
    {prior : Disposition F} {ms : List M}
    {m : M} (h : Linked s sig prior.toSigaction (m :: ms) ⟨.crashSignalHandler m, true⟩) (extra : ℕ) :
    crashSignalHandler s sig ((m :: ms).length + extra) m =
      some ((m :: ms).map .crashSignalHandler ++ [prior.outcome]) := by
  induction ms generalizing m with
  | nil =>
    obtain ⟨-, hhave, hold⟩ := h
    rw [List.length_singleton, Nat.add_comm, crashSignalHandler, next_of_have hsig hhave,
      show s.gOldHandlers m sig = _ from hold]
    cases prior <;> rfl
  | cons m' ms ih =>
    obtain ⟨-, hhave, hrest⟩ := h
    have hold : s.gOldHandlers m sig = ⟨.crashSignalHandler m', true⟩ := hrest.1
    rw [hold] at hrest
    rw [List.length_cons, Nat.add_right_comm, crashSignalHandler, next_of_have hsig hhave, hold]
    have hrun := ih hrest
    simp only [Handler.isDfl, Bool.not_false, Bool.and_self, if_true]
    rw [hrun, Option.map_some]
    rfl

variable [DecidableEq M]

/-- A module that registers for several signals saves the action in force for each of them. -/
theorem foldl_register (m : M) {sigs : List ℕ} (hnodup : sigs.Nodup) (s : State M F) :
    sigs.foldl (fun s sig => s.register m sig) s =
      { s with
        action := fun sig => if sig ∈ sigs then ⟨.crashSignalHandler m, true⟩ else s.action sig
        gOldHandlers := Function.update s.gOldHandlers m fun sig =>
          if sig ∈ sigs then s.action sig else s.gOldHandlers m sig
        gHaveOld := Function.update s.gHaveOld m fun sig =>
          if sig ∈ sigs then true else s.gHaveOld m sig } := by
  induction sigs generalizing s with
  | nil => simp
  | cons x sigs ih =>
    obtain ⟨hx, hrest⟩ := List.nodup_cons.mp hnodup
    rw [List.foldl_cons, ih hrest, State.register]
    simp only [Function.update_self, Function.update_idem, State.mk.injEq, and_true]
    refine ⟨?_, ?_, ?_⟩
    · funext sig
      by_cases h : sig = x
      · simp [h, hx]
      · simp [h]
    · congr 1
      funext sig
      by_cases h : sig = x
      · simp [h, hx]
      · simp [h]
    · congr 1
      funext sig
      by_cases h : sig = x
      · simp [h, hx]
      · simp [h]

theorem kSignals_lt : ∀ sig ∈ kSignals, sig < 64 := by decide

theorem crashHandlerInstall_of_installed {s : State M F} {m : M} (h : s.gInstalled m = true) :
    crashHandlerInstall s m = s := by
  rw [crashHandlerInstall, if_pos h]

theorem crashHandlerInstall_of_not_installed {s : State M F} {m : M} (h : s.gInstalled m = false) :
    crashHandlerInstall s m =
      { action := fun sig => if sig ∈ kSignals then ⟨.crashSignalHandler m, true⟩ else s.action sig
        gOldHandlers := Function.update s.gOldHandlers m fun sig =>
          if sig ∈ kSignals then s.action sig else s.gOldHandlers m sig
        gHaveOld := Function.update s.gHaveOld m fun sig => if sig ∈ kSignals then true else s.gHaveOld m sig
        gInstalled := Function.update s.gInstalled m true } := by
  have hloop : kSignals.foldl (fun s sig => if 64 ≤ sig then s else State.register s m sig) s =
      kSignals.foldl (fun s sig => s.register m sig) s :=
    List.foldl_ext _ _ _ fun a sig hsig => if_neg (Nat.not_le.mpr (kSignals_lt sig hsig))
  rw [crashHandlerInstall, if_neg (by rw [h]; decide), hloop, foldl_register m (by decide)]

/-- The modules `ms` are installed, the first of them last. -/
structure Installed (prior : ℕ → Disposition F) (ms : List M) (s : State M F) : Prop where
  nodup : ms.Nodup
  installed_iff : ∀ m, s.gInstalled m = true ↔ m ∈ ms
  linked : ∀ sig ∈ kSignals, Linked s sig (prior sig).toSigaction ms (s.action sig)

variable {prior : ℕ → Disposition F} {ms : List M} {s : State M F}

theorem Installed.call_again (h : Installed prior ms s) {m : M} (hm : m ∈ ms) : crashHandlerInstall s m = s :=
  crashHandlerInstall_of_installed ((h.installed_iff m).mpr hm)

/-- **The first call of a module** puts it in front of the chain. -/
theorem Installed.first_call (h : Installed prior ms s) {m : M} (hm : m ∉ ms) :
    Installed prior (m :: ms) (crashHandlerInstall s m) := by
  have hnot : s.gInstalled m = false := by
    rw [Bool.eq_false_iff]
    exact fun hi => hm ((h.installed_iff m).mp hi)
  rw [crashHandlerInstall_of_not_installed hnot]
  refine ⟨List.nodup_cons.mpr ⟨hm, h.nodup⟩, fun x => ?_, fun sig hsig => ?_⟩
  · by_cases hx : x = m
    · simp [hx]
    · simp [hx, h.installed_iff x]
  · refine ⟨if_pos hsig, ?_, ?_⟩
    · simp [hsig]
    · -- the modules behind keep what they saved
      have hlinked := h.linked sig hsig
      simp only [Function.update_self, if_pos hsig]
      refine hlinked.congr fun x hx => ?_
      have hne : x ≠ m := fun hxm => hm (hxm ▸ hx)
      simp [hne]

omit [DecidableEq M] in
theorem installed_start (prior : ℕ → Disposition F) : Installed prior ([] : List M) (start prior) where
  nodup := List.nodup_nil
  installed_iff m := by simp [start]
  linked _ _ := rfl

/-- **Any calls.** -/
theorem installed_calls (prior : ℕ → Disposition F) (calls : List M) :
    Installed prior (chain calls) (calls.foldl crashHandlerInstall (start prior)) := by
  induction calls using List.reverseRecOn with
  | nil => exact installed_start prior
  | append_singleton calls m ih =>
    rw [List.foldl_append, List.foldl_cons, List.foldl_nil, chain, List.reverse_append,
      List.reverse_singleton, List.singleton_append]
    by_cases hm : m ∈ calls.reverse
    · have hchain : m ∈ chain calls := List.mem_dedup.mpr hm
      rw [List.dedup_cons_of_mem hm, ih.call_again hchain]
      exact ih
    · have hchain : m ∉ chain calls := fun h => hm (List.mem_dedup.mp h)
      rw [List.dedup_cons_of_notMem hm]
      exact ih.first_call hchain

/-- **A signal after any calls** runs every module that was called exactly once, in the reverse order of
the first calls, and then comes to what was in force before; more fuel makes no difference. -/
theorem deliver_install (prior : ℕ → Disposition F) (first : M) (more : List M) (sig : Signal) (extra : ℕ) :
    deliver ((chain (first :: more)).length + extra) ((first :: more).foldl crashHandlerInstall (start prior))
        sig.number =
      some ((chain (first :: more)).map .crashSignalHandler ++ [(prior sig.number).outcome]) ∧
    (chain (first :: more)).Nodup ∧ ∀ m, m ∈ chain (first :: more) ↔ m ∈ first :: more := by
  have hsig : sig.number ∈ kSignals := by cases sig <;> decide
  have hmem : ∀ m, m ∈ chain (first :: more) ↔ m ∈ first :: more := by
    intro m
    rw [chain, List.mem_dedup, List.mem_reverse]
  have hinst := installed_calls prior (first :: more)
  refine ⟨?_, hinst.nodup, hmem⟩
  have hlinked := hinst.linked sig.number hsig
  cases hc : chain (first :: more) with
  | nil =>
    have hfirst := (hmem first).mpr List.mem_cons_self
    rw [hc] at hfirst
    cases hfirst
  | cons m ms =>
    rw [hc] at hlinked
    have haction := hlinked.1
    rw [haction] at hlinked
    rw [deliver, haction]
    exact crashSignalHandler_of_linked (kSignals_lt _ hsig) hlinked extra

/-- Calls of modules that were called before change nothing. -/
theorem chain_append {calls more : List M} (h : more ⊆ calls) : chain (calls ++ more) = chain calls := by
  rw [chain, List.reverse_append]
  exact List.Subset.dedup_append_right fun m hm => List.mem_reverse.mpr (h (List.mem_reverse.mp hm))

/-- `ProxyEngine.installCrashHandler`, any number of times: `ciadpi_jni.so` stands behind
`tun2socks_jni.so`. -/
theorem chain_of_starts (n : ℕ) :
    chain ((List.replicate (n + 1) [Library.ciadpiJni, .tun2socksJni]).flatten) =
      [.tun2socksJni, .ciadpiJni] := by
  induction n with
  | zero => decide
  | succ n ih =>
    rw [List.replicate_succ', List.flatten_concat, chain_append, ih]
    intro m hm
    rw [List.replicate_succ, List.flatten_cons]
    exact List.mem_append_left _ hm

end BypassVpn.CrashLog.Chain
