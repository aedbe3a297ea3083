import Mathlib.Algebra.Group.Int.Defs
import Mathlib.Data.List.Basic
import BypassVpn.Lib.FileSystem
import BypassVpn.Lib.Transition

/-!
# The native crash log

`crash_handler.c` is compiled into both libraries, each with its own `g_log_fd`, opened once for
appending and never closed. `CrashLogger` clears and reads the same file by its path, in this process
and in later ones. One write is one step, so that the steps of the calls may come in any order.

* `State`, `crashHandlerInstall`, `safeWrite`, `Report.pieces`, `crashLogCheckpoint`, `clearAll`,
  `readNativeCrashLog`, `step`.
* `record`: the lines written since the file was last cleared, beside the state.
* **`nativeCrashLog_reachable`**: a descriptor that is open refers to the file at the path, and that
  file holds exactly those lines.
-/

namespace BypassVpn.CrashLog

open FileSystem Transition

abbrev Bytes := List UInt8

/-- The bytes of an ASCII literal. -/
def ascii (s : String) : Bytes := s.toList.map fun c => c.toNat.toUInt8

/-- The files that `CrashLogger` keeps in `filesDir`. -/
inductive LogFile where
  | JAVA_CRASH_FILE
  | NATIVE_CRASH_FILE
  | CHECKPOINT_FILE
  deriving DecidableEq, Repr

/-- The two libraries, each with its own copy of `crash_handler.c`. -/
inductive Library where
  | ciadpiJni
  | tun2socksJni
  deriving DecidableEq, Repr

/-- The files, the descriptors and the variables of the native crash handlers. -/
structure State where
  disk : Disk LogFile UInt8
  /-- The descriptors that the process has open, and the files they refer to. -/
  fds : ℕ → Option ℕ
  gLogFd : Library → Int

/-- A process that has just started. -/
def State.restart (s : State) : State := { s with fds := fun _ => none, gLogFd := fun _ => -1 }

/-- The first start of the application. -/
def start : State := ⟨Disk.empty, fun _ => none, fun _ => -1⟩

/-! ### `crash_handler.c` -/

/-- `write` on a descriptor opened with `O_APPEND`. -/
def State.write (s : State) (fd : Int) (bs : Bytes) : State :=
  match s.fds fd.toNat with
  | some i => { s with disk := s.disk.append i bs }
  | none => s

/-- `g_log_fd = open(path, O_CREAT | O_WRONLY | O_APPEND)`; `fd` is what `open` returns, a descriptor
not in use. -/
def State.openLog (s : State) (m : Library) (path : LogFile) : Option ℕ → Option State
  | none => some { s with gLogFd := Function.update s.gLogFd m (-1) }
  | some fd =>
    if s.fds fd = none then
      some { disk := (s.disk.create path).1
             fds := Function.update s.fds fd (some (s.disk.create path).2)
             gLogFd := Function.update s.gLogFd m fd }
    else none

/-- `crash_handler_install`; `fd` is what `open` returns if it is called. -/
def crashHandlerInstall (s : State) (m : Library) (logPath : Option LogFile) (fd : Option ℕ) :
    Option State :=
  match logPath with
  | none => some s
  | some path => if s.gLogFd m < 0 then s.openLog m path fd else some s

/-- `safe_write`: nothing where no log is open. -/
def safeWrite (s : State) (m : Library) (text : Bytes) : State :=
  if s.gLogFd m < 0 then s else s.write (s.gLogFd m) text

/-- The digits of `v`, at most `room` of them, before `buf`. -/
def digits (base : ℕ) : ℕ → ℕ → Bytes → Bytes
  | 0, _, buf => buf
  | room + 1, v, buf =>
    if v = 0 then buf
    else digits base room (v / base) ((ascii "0123456789abcdef").getD (v % base) 0 :: buf)

/-- What `safe_write_ulong_dec` writes. -/
def ulongDec (v : ℕ) : Bytes := if v = 0 then ascii "0" else digits 10 23 v []

/-- What `safe_write_ulong_hex` writes after `0x`. -/
def ulongHex (v : ℕ) : Bytes := if v = 0 then ascii "0" else digits 16 19 v []

/-- The signals that `crash_handler_install` registers. -/
inductive Signal where
  | SIGABRT
  | SIGSEGV
  | SIGBUS
  | SIGILL
  | SIGFPE
  | SIGTRAP
  deriving DecidableEq, Repr

/-- The number of the signal on Linux. -/
def Signal.number : Signal → ℕ
  | .SIGABRT => 6
  | .SIGSEGV => 11
  | .SIGBUS => 7
  | .SIGILL => 4
  | .SIGFPE => 8
  | .SIGTRAP => 5

/-- `signal_name`. -/
def signalName : Signal → Bytes
  | .SIGABRT => ascii "SIGABRT"
  | .SIGSEGV => ascii "SIGSEGV"
  | .SIGBUS => ascii "SIGBUS"
  | .SIGILL => ascii "SIGILL"
  | .SIGFPE => ascii "SIGFPE"
  | .SIGTRAP => ascii "SIGTRAP"

/-- What a call of `crash_signal_handler` reports. -/
structure Report where
  sig : Signal
  /-- `si_code` and `si_addr`. -/
  info : Option (Int × ℕ)
  pid : ℕ
  tid : ℕ
  /-- The bits of an `unsigned long`. -/
  longBits : ℕ

/-- The strings that `crash_signal_handler` hands to `safe_write`, in order. -/
def Report.pieces (r : Report) : List Bytes :=
  [ascii "\n=== NATIVE CRASH (myVPNproject) ===\nSignal: ", signalName r.sig, ascii " (",
    ulongDec r.sig.number, ascii ")\n"] ++
  (match r.info with
    | some (siCode, siAddr) =>
      [ascii "si_code: ", ulongDec (siCode % 2 ^ r.longBits).toNat, ascii "\nfaulting address: ",
        ascii "0x", ulongHex siAddr, ascii "\n"]
    | none => []) ++
  [ascii "pid: ", ulongDec r.pid, ascii " tid: ", ulongDec r.tid, ascii "\n=== END NATIVE CRASH ===\n"]

/-- What `snprintf` formats: `[checkpoint t=%ld] %s\n`. -/
def checkpointLine (now : Int) (tag : Bytes) : Bytes :=
  ascii s!"[checkpoint t={now}] " ++ tag ++ ascii "\n"

/-- `sizeof(line)`. -/
def LINE_SIZE : ℕ := 256

/-- What `write(g_log_fd, line, n)` takes from the memory at `line`: `snprintf` has cut the text to the
buffer, but returned the length before the cut; `beyond` is what follows the buffer on the stack. -/
def checkpointWritten (line beyond : Bytes) : Bytes :=
  (line.take (LINE_SIZE - 1) ++ [0] ++ beyond).take line.length

/-- `crash_log_checkpoint` at the time `now`. -/
def crashLogCheckpoint (s : State) (m : Library) (now : Int) (tag : Option Bytes) (beyond : Bytes) : State :=
  match tag with
  | none => s
  | some tag =>
    if s.gLogFd m < 0 then s
    else s.write (s.gLogFd m) (checkpointWritten (checkpointLine now tag) beyond)

/-! ### `CrashLogger` -/

/-- `File.delete`, which may fail. -/
def State.delete (s : State) (name : LogFile) (ok : Bool) : State :=
  if ok then { s with disk := s.disk.unlink name } else s

/-- `truncateInPlace`; an exception of `RandomAccessFile` or of `setLength` is swallowed (`ok = false`).
-/
def truncateInPlace (s : State) (name : LogFile) (ok : Bool) : State :=
  match s.disk.entry name with
  | some i => if ok then { s with disk := s.disk.setLength 0 i 0 } else s
  | none => s

/-- `CrashLog.clearAll`; the flags tell which calls succeed. -/
def clearAll (s : State) (javaOk nativeOk checkpointOk : Bool) : State :=
  ((truncateInPlace (s.delete .JAVA_CRASH_FILE javaOk) .NATIVE_CRASH_FILE nativeOk).delete
    .CHECKPOINT_FILE checkpointOk)

/-- The text of a file that is not empty. -/
def readIfExists (s : State) (name : LogFile) : Option Bytes :=
  match s.disk.read name with
  | some text => if text.length > 0 then some text else none
  | none => none

/-- `CrashLog.readNativeCrashLog`. -/
def readNativeCrashLog (s : State) : Option Bytes := readIfExists s .NATIVE_CRASH_FILE

/-! ### Runs -/

/-- A step of a call; the JNI functions that install the handlers go on with a checkpoint. -/
inductive Event where
  | install (m : Library) (fd : Option ℕ)
  | checkpoint (m : Library) (now : Int) (tag : Option Bytes) (beyond : Bytes)
  /-- The write number `k` of a signal report. -/
  | report (m : Library) (r : Report) (k : ℕ)
  | clearAll (javaOk nativeOk checkpointOk : Bool)
  | readNativeCrashLog
  | restart

/-- One event; `none` where it cannot happen. -/
def step (s : State) : Event → Option State
  | .install m fd => crashHandlerInstall s m (some .NATIVE_CRASH_FILE) fd
  | .checkpoint m now tag beyond => some (crashLogCheckpoint s m now tag beyond)
  | .report m r k => some ((r.pieces[k]?).elim s (safeWrite s m))
  | .clearAll javaOk nativeOk checkpointOk => some (CrashLog.clearAll s javaOk nativeOk checkpointOk)
  | .readNativeCrashLog => some s
  | .restart => some s.restart

/-- The line that the event hands to a descriptor that is open. -/
def Event.line (s : State) : Event → List Bytes
  | .checkpoint m now (some tag) _ => if s.gLogFd m < 0 then [] else [checkpointLine now tag]
  | .report m r k => if s.gLogFd m < 0 then [] else (r.pieces[k]?).toList
  | _ => []

/-- The event empties the log; a truncation that has thrown does not. -/
def Event.clears : Event → Bool
  | .clearAll _ nativeOk _ => nativeOk
  | _ => false

/-- A step, and the lines written since the log was last cleared. -/
def record (p : State × List Bytes) (e : Event) : Option (State × List Bytes) :=
  (step p.1 e).map fun s => (s, if e.clears then [] else p.2 ++ e.line p.1)

/-- The formatted line fits the buffer with its terminating zero. -/
def Fits (_ : State × List Bytes) : Event → Prop
  | .checkpoint _ now (some tag) _ => (checkpointLine now tag).length < LINE_SIZE
  | _ => True

/-! ### What the steps keep -/

/-- Each descriptor that is open refers to the file at the path, which holds the recorded lines. -/
structure Reaches (s : State) (lines : List Bytes) : Prop where
  fd : ∀ m, 0 ≤ s.gLogFd m → ∃ i, s.fds (s.gLogFd m).toNat = some i ∧
    s.disk.entry .NATIVE_CRASH_FILE = some i
  text : s.disk.text .NATIVE_CRASH_FILE = lines.flatten

variable {s : State} {lines : List Bytes} {m : Library}

theorem Reaches.start : Reaches start [] := by
  refine ⟨fun m hm => ?_, rfl⟩
  exact absurd (show (0 : Int) ≤ -1 from hm) (by decide)

theorem Reaches.restart (h : Reaches s lines) : Reaches s.restart lines := by
  refine ⟨fun m hm => ?_, h.text⟩
  exact absurd (show (0 : Int) ≤ -1 from hm) (by decide)

/-- A write through a descriptor that is open is seen at the path. -/
theorem Reaches.write (h : Reaches s lines) (hm : 0 ≤ s.gLogFd m) (bs : Bytes) :
    Reaches (s.write (s.gLogFd m) bs) (lines ++ [bs]) := by
  obtain ⟨i, hi, he⟩ := h.fd m hm
  have hw : s.write (s.gLogFd m) bs = { s with disk := s.disk.append i bs } := by
    unfold State.write
    rw [hi]
  rw [hw]
  refine ⟨h.fd, ?_⟩
  show (s.disk.append i bs).text .NATIVE_CRASH_FILE = (lines ++ [bs]).flatten
  rw [Disk.append_text he, h.text, List.flatten_append, List.flatten_singleton]

/-- A descriptor that `open` returns is none of those in use. -/
theorem Reaches.openLog {s' : State} {fd : Option ℕ} (h : Reaches s lines)
    (hs : s.openLog m .NATIVE_CRASH_FILE fd = some s') : Reaches s' lines := by
  unfold State.openLog at hs
  cases fd with
  | none =>
    obtain rfl := Option.some.inj hs
    refine ⟨fun m' hm' => ?_, h.text⟩
    by_cases hmm : m' = m
    · subst hmm
      dsimp only at hm'
      rw [Function.update_self] at hm'
      exact absurd hm' (by decide)
    · dsimp only at hm' ⊢
      rw [Function.update_of_ne hmm] at hm' ⊢
      exact h.fd m' hm'
  | some n =>
    by_cases hn : s.fds n = none
    · obtain rfl := Option.some.inj ((if_pos hn).symm.trans hs)
      refine ⟨fun m' hm' => ?_, (Disk.create_text _ _).trans h.text⟩
      by_cases hmm : m' = m
      · subst hmm
        refine ⟨_, ?_, Disk.create_entry _ _⟩
        dsimp only
        rw [Function.update_self, Int.toNat_natCast, Function.update_self]
      · dsimp only at hm' ⊢
        rw [Function.update_of_ne hmm] at hm' ⊢
        obtain ⟨i, hi, he⟩ := h.fd m' hm'
        have hne : (s.gLogFd m').toNat ≠ n := by
          rintro rfl
          rw [hn] at hi
          cases hi
        refine ⟨i, ?_, ?_⟩
        · rw [Function.update_of_ne hne]
          exact hi
        · rw [Disk.create_of_entry he]
          exact he
    · exact absurd ((if_neg hn).symm.trans hs) (by simp)

theorem Reaches.install {s' : State} {fd : Option ℕ} (h : Reaches s lines)
    (hs : crashHandlerInstall s m (some .NATIVE_CRASH_FILE) fd = some s') : Reaches s' lines := by
  unfold crashHandlerInstall at hs
  by_cases hneg : s.gLogFd m < 0
  · exact h.openLog ((if_pos hneg).symm.trans hs)
  · obtain rfl := Option.some.inj ((if_neg hneg).symm.trans hs)
    exact h

/-- A line that fits the buffer is written as it was formatted. -/
theorem checkpointWritten_of_lt {line : Bytes} (h : line.length < LINE_SIZE) (beyond : Bytes) :
    checkpointWritten line beyond = line := by
  unfold checkpointWritten
  rw [List.take_of_length_le (show line.length ≤ LINE_SIZE - 1 from by omega), List.append_assoc,
    List.take_left]

theorem Reaches.delete {name : LogFile} (h : Reaches s lines) (hn : LogFile.NATIVE_CRASH_FILE ≠ name)
    (ok : Bool) : Reaches (s.delete name ok) lines := by
  unfold State.delete
  cases ok with
  | false => exact h
  | true =>
    rw [if_pos rfl]
    refine ⟨fun m hm => ?_, (Disk.unlink_text hn _).trans h.text⟩
    obtain ⟨i, hi, he⟩ := h.fd m hm
    exact ⟨i, hi, (Disk.unlink_entry hn _).trans he⟩

theorem Reaches.truncate (h : Reaches s lines) (ok : Bool) :
    Reaches (truncateInPlace s .NATIVE_CRASH_FILE ok) (if ok then [] else lines) := by
  unfold truncateInPlace
  cases he : s.disk.entry .NATIVE_CRASH_FILE with
  | none =>
    refine ⟨h.fd, ?_⟩
    rw [Disk.text_of_no_entry he]
    cases ok with
    | false => rw [if_neg Bool.false_ne_true, ← h.text, Disk.text_of_no_entry he]
    | true => rfl
  | some i =>
    cases ok with
    | false => exact h
    | true =>
      refine ⟨fun m hm => ?_, Disk.setLength_zero_text 0 he⟩
      obtain ⟨j, hj, hej⟩ := h.fd m hm
      exact ⟨j, hj, hej⟩

theorem Reaches.clearAll (h : Reaches s lines) (javaOk nativeOk checkpointOk : Bool) :
    Reaches (clearAll s javaOk nativeOk checkpointOk) (if nativeOk then [] else lines) :=
  ((h.delete (by decide) javaOk).truncate nativeOk).delete (by decide) checkpointOk

theorem Reaches.checkpoint {now : Int} {tag : Option Bytes} (h : Reaches s lines) (beyond : Bytes)
    (hfit : Fits (s, lines) (.checkpoint m now tag beyond)) :
    Reaches (crashLogCheckpoint s m now tag beyond)
      (lines ++ (Event.checkpoint m now tag beyond).line s) := by
  cases tag with
  | none =>
    show Reaches s (lines ++ [])
    rw [List.append_nil]
    exact h
  | some tag =>
    show Reaches (if s.gLogFd m < 0 then s else s.write (s.gLogFd m)
      (checkpointWritten (checkpointLine now tag) beyond))
      (lines ++ if s.gLogFd m < 0 then [] else [checkpointLine now tag])
    by_cases hneg : s.gLogFd m < 0
    · rw [if_pos hneg, if_pos hneg, List.append_nil]
      exact h
    · rw [if_neg hneg, if_neg hneg, checkpointWritten_of_lt hfit beyond]
      exact h.write (Int.not_lt.mp hneg) _

theorem Reaches.report (h : Reaches s lines) (r : Report) (k : ℕ) :
    Reaches ((r.pieces[k]?).elim s (safeWrite s m)) (lines ++ (Event.report m r k).line s) := by
  show Reaches ((r.pieces[k]?).elim s (safeWrite s m))
    (lines ++ if s.gLogFd m < 0 then [] else (r.pieces[k]?).toList)
  by_cases hneg : s.gLogFd m < 0
  · have hsame : (r.pieces[k]?).elim s (safeWrite s m) = s := by
      cases r.pieces[k]? with
      | none => rfl
      | some text => exact if_pos hneg
    rw [hsame, if_pos hneg, List.append_nil]
    exact h
  · rw [if_neg hneg]
    cases r.pieces[k]? with
    | none =>
      show Reaches s (lines ++ [])
      rw [List.append_nil]
      exact h
    | some text =>
      have hw : safeWrite s m text = s.write (s.gLogFd m) text := if_neg hneg
      show Reaches (safeWrite s m text) (lines ++ [text])
      rw [hw]
      exact h.write (Int.not_lt.mp hneg) text

theorem Reaches.step {p p' : State × List Bytes} {e : Event} (h : Reaches p.1 p.2) (hfit : Fits p e)
    (hs : record p e = some p') : Reaches p'.1 p'.2 := by
  obtain ⟨s, lines⟩ := p
  obtain ⟨s', hstep, rfl⟩ := Option.map_eq_some_iff.mp hs
  cases e with
  | install m fd =>
    show Reaches s' (lines ++ [])
    rw [List.append_nil]
    exact h.install hstep
  | checkpoint m now tag beyond =>
    obtain rfl := Option.some.inj hstep
    exact h.checkpoint beyond hfit
  | report m r k =>
    obtain rfl := Option.some.inj hstep
    exact h.report r k
  | clearAll javaOk nativeOk checkpointOk =>
    obtain rfl := Option.some.inj hstep
    have hc := h.clearAll javaOk nativeOk checkpointOk
    cases nativeOk with
    | false =>
      show Reaches _ (lines ++ [])
      rw [List.append_nil]
      exact hc
    | true => exact hc
  | readNativeCrashLog =>
    obtain rfl := Option.some.inj hstep
    show Reaches _ (lines ++ [])
    rw [List.append_nil]
    exact h
  | restart =>
    obtain rfl := Option.some.inj hstep
    show Reaches _ (lines ++ [])
    rw [List.append_nil]
    exact h.restart

theorem reaches_of_reachable {p : State × List Bytes} (h : Reachable record (start, []) Fits p) :
    Reaches p.1 p.2 :=
  @Reachable.invariant _ _ record (start, []) Fits (fun q => Reaches q.1 q.2) Reaches.start
    (fun _ _ _ _ hq hfit hs => Reaches.step hq hfit hs) p h

/-- The next start of the application shows the lines, if there are any. -/
theorem Reaches.readNativeCrashLog (h : Reaches s lines) :
    readNativeCrashLog s = if lines.flatten.length > 0 then some lines.flatten else none := by
  rw [← h.text]
  unfold CrashLog.readNativeCrashLog readIfExists Disk.text
  cases s.disk.read .NATIVE_CRASH_FILE with
  | none => rfl
  | some text => rfl

/-- **The native log stays reachable.** After any steps of any calls, a descriptor that is open refers
to the file at the path, and the file holds the lines written since it was last cleared, in order. -/
theorem nativeCrashLog_reachable {s : State} {lines : List Bytes}
    (h : Reachable record (start, []) Fits (s, lines)) :
    (∀ m, 0 ≤ s.gLogFd m → ∃ i, s.fds (s.gLogFd m).toNat = some i ∧
      s.disk.entry .NATIVE_CRASH_FILE = some i) ∧
    s.disk.text .NATIVE_CRASH_FILE = lines.flatten :=
  ⟨(reaches_of_reachable h).fd, (reaches_of_reachable h).text⟩

/-- A line is written after the file was cleared under the open descriptor; another process reads it. -/
theorem nativeCrashLog_reachable_cleared : ∃ (s : State) (lines : List Bytes), lines =
    [checkpointLine 9 (ascii "after")] ∧
    (∀ m, 0 ≤ s.gLogFd m → ∃ i, s.fds (s.gLogFd m).toNat = some i ∧
      s.disk.entry .NATIVE_CRASH_FILE = some i) ∧
    s.disk.text .NATIVE_CRASH_FILE = lines.flatten := by
  have hbefore : (checkpointLine 7 (ascii "before")).length < LINE_SIZE := by decide
  have hafter : (checkpointLine 9 (ascii "after")).length < LINE_SIZE := by decide
  have h₀ : Reachable record (start, []) Fits (start, []) := .init
  have h := ((((h₀.next
    (.install .ciadpiJni (some 40)) trivial rfl).next
    (.checkpoint .ciadpiJni 7 (some (ascii "before")) []) hbefore rfl).next
    (.clearAll true true true) trivial rfl).next
    (.checkpoint .ciadpiJni 9 (some (ascii "after")) []) hafter rfl).next
    .restart trivial rfl
  exact ⟨_, _, rfl, nativeCrashLog_reachable h⟩

end BypassVpn.CrashLog
