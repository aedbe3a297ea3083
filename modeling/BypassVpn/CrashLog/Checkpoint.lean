import Mathlib.Data.List.Nodup
import BypassVpn.CrashLog.Native

/-!
# `CrashLogger.checkpoint`

Any threads write checkpoints to one file. A call tests the file, opens it, asks for its length, seeks
there and writes; each of these is a step of its own, between which the other calls may act.

* `Pc`, `State`, `goStep`, `throwStep`, `step`: the calls, with the lines of those that have returned.
* `Kept`: the file is made of pieces, one for each call that has written, and the lines of the calls
  that have returned are among them.
* `Separate`: a call writes at the end the file has; `Ordered`, `Ordered.step`.
* **`checkpoint_kept`**: then no line is lost; `checkpoint_overwritten`: else one may be.
-/

namespace BypassVpn.CrashLog.Checkpoint

open FileSystem Transition

def MAX_CHECKPOINT_FILE_SIZE : ℕ := 256 * 1024

/-- A call of `checkpoint`. -/
structure Call where
  id : ℕ
  tag : Bytes
  deriving DecidableEq, Repr

/-- The next statement of `checkpoint`. -/
inductive Pc where
  /-- In no call. -/
  | idle
  /-- Before `f.exists()`. -/
  | testExists (c : Call)
  /-- Before `f.length() > MAX_CHECKPOINT_FILE_SIZE`. -/
  | testLength (c : Call)
  | delete (c : Call)
  | openFile (c : Call)
  /-- Before `raf.length()`, with the file open. -/
  | length (c : Call) (i : ℕ)
  | seek (c : Call) (i len : ℕ)
  | write (c : Call) (i pos : ℕ)
  | sync (c : Call) (i : ℕ) (line : Bytes)
  | close (c : Call) (i : ℕ) (line : Bytes)
  deriving DecidableEq, Repr

/-- The files, where each thread stands, and the calls. -/
structure State where
  disk : Disk LogFile UInt8
  pc : ℕ → Pc
  /-- The calls made so far. -/
  calls : ℕ
  /-- The calls that have returned without an exception, and their lines. -/
  returned : List (ℕ × Bytes)

/-- No call has been made. -/
def start (disk : Disk LogFile UInt8) : State := ⟨disk, fun _ => .idle, 0, []⟩

/-- The checkpoint file. -/
def State.text (s : State) : Bytes := s.disk.text .CHECKPOINT_FILE

/-- A thread goes on. -/
def State.goto (s : State) (t : ℕ) (pc : Pc) : State := { s with pc := Function.update s.pc t pc }

/-- `"[kt-checkpoint t=${System.currentTimeMillis()}] $tag\n"`. -/
def checkpointLine (now : Int) (tag : Bytes) : Bytes :=
  ascii s!"[kt-checkpoint t={now}] " ++ tag ++ ascii "\n"

/-- The next statement of the thread `t`; `now` is what `currentTimeMillis` returns. -/
def goStep (s : State) (t : ℕ) (now : Int) : Pc → State
  | .idle => s
  | .testExists c =>
    if (s.disk.entry .CHECKPOINT_FILE).isSome then s.goto t (.testLength c) else s.goto t (.openFile c)
  | .testLength c =>
    if s.text.length > MAX_CHECKPOINT_FILE_SIZE then s.goto t (.delete c) else s.goto t (.openFile c)
  | .delete c => { s.goto t (.openFile c) with disk := s.disk.unlink .CHECKPOINT_FILE }
  | .openFile c =>
    { s.goto t (.length c (s.disk.create .CHECKPOINT_FILE).2) with
        disk := (s.disk.create .CHECKPOINT_FILE).1 }
  | .length c i => s.goto t (.seek c i (s.disk.content i).length)
  | .seek c i len => s.goto t (.write c i len)
  | .write c i pos =>
    { s.goto t (.sync c i (checkpointLine now c.tag)) with
        disk := s.disk.writeAt 0 i pos (checkpointLine now c.tag) }
  | .sync c i line => s.goto t (.close c i line)
  | .close c _ line => { s.goto t .idle with returned := s.returned ++ [(c.id, line)] }

/-- The next statement throws, and `checkpoint` swallows the exception; a write may have written `k`
bytes. -/
def throwStep (s : State) (t : ℕ) (now : Int) (k : ℕ) : Pc → State
  | .write c i pos =>
    { s.goto t .idle with disk := s.disk.writeAt 0 i pos ((checkpointLine now c.tag).take k) }
  | _ => s.goto t .idle

/-- What a thread does in one step. -/
inductive Act where
  /-- A call of `checkpoint`. -/
  | enter (tag : Bytes)
  | go (now : Int)
  /-- `f.delete()` returns false. -/
  | refuse
  | throw (now : Int) (k : ℕ)

/-- A step of a thread. -/
structure Label where
  thread : ℕ
  act : Act

/-- One step of a thread; `none` where it cannot be taken. -/
def step (s : State) (l : Label) : Option State :=
  match l.act with
  | .enter tag =>
    if s.pc l.thread = .idle then
      some { s.goto l.thread (.testExists ⟨s.calls, tag⟩) with calls := s.calls + 1 }
    else none
  | .go now => if s.pc l.thread = .idle then none else some (goStep s l.thread now (s.pc l.thread))
  | .refuse =>
    match s.pc l.thread with
    | .delete c => some (s.goto l.thread (.openFile c))
    | _ => none
  | .throw now k =>
    if s.pc l.thread = .idle then none else some (throwStep s l.thread now k (s.pc l.thread))

/-- The file is what it was before the calls and then pieces of different calls; the whole line of each
call that has returned is one of them. -/
def Kept (old : Bytes) (s : State) : Prop :=
  ∃ chunks : List (ℕ × Bytes), s.text = old ++ (chunks.map Prod.snd).flatten ∧
    (chunks.map Prod.fst).Nodup ∧ ∀ r ∈ s.returned, r ∈ chunks

/-- The file stays at or below its maximal size. -/
def Small (s : State) (_ : Label) : Prop := s.text.length ≤ MAX_CHECKPOINT_FILE_SIZE

/-- The position of a call that is about to write. -/
def Pc.position : Pc → Option ℕ
  | .write _ _ pos => some pos
  | _ => none

/-- If the thread is about to write, the length it has read is still that of the file: no other call has
written since. -/
def AtEnd (s : State) (l : Label) : Prop := ∀ pos ∈ (s.pc l.thread).position, pos = s.text.length

/-- What keeps the checkpoints apart. -/
def Separate (s : State) (l : Label) : Prop := Small s l ∧ AtEnd s l

instance (s : State) (l : Label) : Decidable (Small s l) := inferInstanceAs (Decidable (_ ≤ _))

instance (s : State) (l : Label) : Decidable (AtEnd s l) :=
  inferInstanceAs (Decidable (∀ pos ∈ (s.pc l.thread).position, pos = s.text.length))

instance (s : State) (l : Label) : Decidable (Separate s l) := inferInstanceAs (Decidable (_ ∧ _))

/-! ### What the steps keep -/

/-- The call that a thread is in. -/
def Pc.call : Pc → Option Call
  | .idle => none
  | .testExists c => some c
  | .testLength c => some c
  | .delete c => some c
  | .openFile c => some c
  | .length c _ => some c
  | .seek c _ _ => some c
  | .write c _ _ => some c
  | .sync c _ _ => some c
  | .close c _ _ => some c

/-- The file that the call has open. -/
def Pc.inode : Pc → Option ℕ
  | .length _ i => some i
  | .seek _ i _ => some i
  | .write _ i _ => some i
  | .sync _ i _ => some i
  | .close _ i _ => some i
  | _ => none

/-- The line that the call has written. -/
def Pc.line : Pc → Option Bytes
  | .sync _ _ line => some line
  | .close _ _ line => some line
  | _ => none

/-- What is known of the calls while the file is `old` and then `chunks`. -/
structure Ordered (old : Bytes) (s : State) (chunks : List (ℕ × Bytes)) : Prop where
  text : s.text = old ++ (chunks.map Prod.snd).flatten
  nodup : (chunks.map Prod.fst).Nodup
  numbered : ∀ p ∈ chunks, p.1 < s.calls
  returned : ∀ r ∈ s.returned, r ∈ chunks
  called : ∀ t c, (s.pc t).call = some c → c.id < s.calls
  apart : ∀ t t' c c', (s.pc t).call = some c → (s.pc t').call = some c' → c.id = c'.id → t = t'
  file : ∀ t i, (s.pc t).inode = some i → s.disk.entry .CHECKPOINT_FILE = some i
  unwritten : ∀ t c, (s.pc t).call = some c → (s.pc t).line = none → c.id ∉ chunks.map Prod.fst
  written : ∀ t c line, (s.pc t).call = some c → (s.pc t).line = some line → (c.id, line) ∈ chunks
  present : ∀ t c, s.pc t ≠ .delete c

/-- The file holds its old text and the lines of the calls, each once and in order. -/
def Inv (old : Bytes) (s : State) : Prop := ∃ chunks, Ordered old s chunks

variable {old : Bytes} {s : State} {chunks : List (ℕ × Bytes)} {t : ℕ}

/-- What holds of a thread afterwards holds of where the call went, or held of that thread before. -/
theorem pc_goto (P : Pc → Prop) {pc' : Pc} {u : ℕ} (h : P (Function.update s.pc t pc' u)) :
    (u = t ∧ P pc') ∨ (u ≠ t ∧ P (s.pc u)) := by
  by_cases hu : u = t
  · rw [hu, Function.update_self] at h
    exact .inl ⟨hu, h⟩
  · rw [Function.update_of_ne hu] at h
    exact .inr ⟨hu, h⟩

theorem Ordered.start (disk : Disk LogFile UInt8) :
    Ordered (disk.text .CHECKPOINT_FILE) (start disk) [] where
  text := (List.append_nil _).symm
  nodup := List.nodup_nil
  numbered := fun _ hp => absurd hp List.not_mem_nil
  returned := fun _ hr => absurd hr List.not_mem_nil
  called := fun _ _ hc => absurd hc (Option.some_ne_none _).symm
  apart := fun _ _ _ _ hc => absurd hc (Option.some_ne_none _).symm
  file := fun _ _ hi => absurd hi (Option.some_ne_none _).symm
  unwritten := fun _ _ hc => absurd hc (Option.some_ne_none _).symm
  written := fun _ _ _ hc => absurd hc (Option.some_ne_none _).symm
  present := fun _ _ hp => by cases hp

/-- A statement that writes nothing: the call goes on, or it ends. -/
theorem Ordered.move {pc' : Pc} {d : Disk LogFile UInt8} {ret : List (ℕ × Bytes)} (h : Ordered old s chunks)
    (htext : d.text .CHECKPOINT_FILE = s.text)
    (hentry : ∀ i, s.disk.entry .CHECKPOINT_FILE = some i → d.entry .CHECKPOINT_FILE = some i)
    (hcall : ∀ c, pc'.call = some c → (s.pc t).call = some c ∧ pc'.line = (s.pc t).line)
    (hinode : ∀ i, pc'.inode = some i → d.entry .CHECKPOINT_FILE = some i)
    (hpresent : ∀ c, pc' ≠ .delete c) (hret : ∀ r ∈ ret, r ∈ chunks) :
    Ordered old { s.goto t pc' with disk := d, returned := ret } chunks := by
  -- what is known of a thread, the one that moves included
  have hpc : ∀ u c, (Function.update s.pc t pc' u).call = some c →
      (s.pc u).call = some c ∧ (Function.update s.pc t pc' u).line = (s.pc u).line := by
    intro u c hc
    by_cases hu : u = t
    · subst hu
      rw [Function.update_self] at hc ⊢
      exact hcall c hc
    · rw [Function.update_of_ne hu] at hc ⊢
      exact ⟨hc, rfl⟩
  constructor
  · exact htext.trans h.text
  · exact h.nodup
  · exact h.numbered
  · exact hret
  · exact fun u c hc => h.called u c (hpc u c hc).1
  · exact fun u u' c c' hc hc' hid => h.apart u u' c c' (hpc u c hc).1 (hpc u' c' hc').1 hid
  · intro u i hi
    rcases pc_goto (fun p => p.inode = some i) hi with ⟨_, hi⟩ | ⟨_, hi⟩
    · exact hinode i hi
    · exact hentry i (h.file u i hi)
  · exact fun u c hc hl => h.unwritten u c (hpc u c hc).1 ((hpc u c hc).2.symm.trans hl)
  · exact fun u c line hc hl => h.written u c line (hpc u c hc).1 ((hpc u c hc).2.symm.trans hl)
  · intro u c hdel
    rcases pc_goto (fun p => p = .delete c) hdel with ⟨_, hdel⟩ | ⟨_, hdel⟩
    · exact hpresent c hdel
    · exact h.present u c hdel

theorem Ordered.enter (h : Ordered old s chunks) (tag : Bytes) :
    Ordered old { s.goto t (.testExists ⟨s.calls, tag⟩) with calls := s.calls + 1 } chunks := by
  -- the call of a thread is the new one, or was there before
  have hother : ∀ u c, (Function.update s.pc t (.testExists ⟨s.calls, tag⟩) u).call = some c →
      (u = t ∧ c.id = s.calls) ∨ (u ≠ t ∧ (s.pc u).call = some c ∧ c.id < s.calls) := by
    intro u c hc
    rcases pc_goto (fun p => p.call = some c) hc with ⟨hu, hc⟩ | ⟨hu, hc⟩
    · obtain rfl := Option.some.inj hc
      exact .inl ⟨hu, rfl⟩
    · exact .inr ⟨hu, hc, h.called u c hc⟩
  constructor
  · exact h.text
  · exact h.nodup
  · exact fun p hp => Nat.lt_succ_of_lt (h.numbered p hp)
  · exact h.returned
  · intro u c hc
    show c.id < s.calls + 1
    rcases hother u c hc with ⟨_, hid⟩ | ⟨_, _, hid⟩ <;> omega
  · intro u u' c c' hc hc' hid
    rcases hother u c hc with ⟨hu, hnew⟩ | ⟨hu, hold, hlt⟩ <;>
      rcases hother u' c' hc' with ⟨hu', hnew'⟩ | ⟨hu', hold', hlt'⟩
    · exact hu.trans hu'.symm
    · omega
    · omega
    · exact h.apart u u' c c' hold hold' hid
  · intro u i hi
    rcases pc_goto (fun p => p.inode = some i) hi with ⟨_, hi⟩ | ⟨_, hi⟩
    · cases hi
    · exact h.file u i hi
  · intro u c hc hl hmem
    obtain ⟨p, hp, hpid⟩ := List.mem_map.mp hmem
    have hlt := h.numbered p hp
    rcases hother u c hc with ⟨_, hid⟩ | ⟨hu, hold, _⟩
    · omega
    · rcases pc_goto (fun p => p.line = none) hl with ⟨hut, _⟩ | ⟨_, hl⟩
      · exact absurd hut hu
      · exact h.unwritten u c hold hl hmem
  · intro u c line hc hl
    rcases pc_goto (fun p => p.call = some c ∧ p.line = some line) ⟨hc, hl⟩ with ⟨_, _, hl⟩ | ⟨_, hc, hl⟩
    · cases hl
    · exact h.written u c line hc hl
  · intro u c hdel
    rcases pc_goto (fun p => p = .delete c) hdel with ⟨_, hdel⟩ | ⟨_, hdel⟩
    · cases hdel
    · exact h.present u c hdel

/-- A write at the end of the file adds a piece; the call goes on if it has written the whole line. -/
theorem Ordered.write {c : Call} {i pos : ℕ} {bs : Bytes} {pc' : Pc} (h : Ordered old s chunks)
    (hpc : s.pc t = .write c i pos) (hend : pos = s.text.length) (hpc' : pc' = .idle ∨ pc' = .sync c i bs) :
    Ordered old { s.goto t pc' with disk := s.disk.writeAt 0 i pos bs } (chunks ++ [(c.id, bs)]) := by
  have hc : (s.pc t).call = some c := by rw [hpc, Pc.call]
  have hfile : s.disk.entry .CHECKPOINT_FILE = some i := h.file t i (congrArg Pc.inode hpc)
  have hnew : c.id ∉ chunks.map Prod.fst := h.unwritten t c hc (congrArg Pc.line hpc)
  -- the thread that writes ends its call or goes on to `sync`; the others are where they were
  have hcall : ∀ u c', (Function.update s.pc t pc' u).call = some c' → (s.pc u).call = some c' := by
    intro u c' hu'
    rcases pc_goto (fun p => p.call = some c') hu' with ⟨hu, hcall⟩ | ⟨_, hcall⟩
    · rcases hpc' with rfl | rfl
      · cases hcall
      · rw [hu, hc]
        exact hcall
    · exact hcall
  constructor
  · show (s.disk.writeAt 0 i pos bs).text .CHECKPOINT_FILE = _
    have ht : s.disk.text .CHECKPOINT_FILE = old ++ (chunks.map Prod.snd).flatten := h.text
    have hp : pos = (s.disk.text .CHECKPOINT_FILE).length := hend
    rw [Disk.writeAt_text 0 hfile, hp, overwrite_length, ht, List.map_append, List.flatten_append,
      List.append_assoc]
    rw [List.map_cons, List.map_nil, List.flatten_singleton]
  · rw [List.map_append]
    refine List.nodup_append.mpr ⟨h.nodup, List.nodup_singleton _, fun a ha b hb hab => hnew ?_⟩
    have hb' : b = c.id := List.mem_singleton.mp hb
    rwa [← hb', ← hab]
  · intro p hp
    rcases List.mem_append.mp hp with hp | hp
    · exact h.numbered p hp
    · rw [List.mem_singleton.mp hp]
      exact h.called t c hc
  · exact fun r hr => List.mem_append_left _ (h.returned r hr)
  · exact fun u c' hu => h.called u c' (hcall u c' hu)
  · exact fun u u' d d' hd hd' hid => h.apart u u' d d' (hcall u d hd) (hcall u' d' hd') hid
  · intro u j hj
    rcases pc_goto (fun p => p.inode = some j) hj with ⟨_, hj⟩ | ⟨_, hj⟩
    · rcases hpc' with rfl | rfl
      · cases hj
      · exact hfile.trans hj
    · exact h.file u j hj
  · intro u c' hu' hl
    rcases pc_goto (fun p => p.call = some c' ∧ p.line = none) ⟨hu', hl⟩ with ⟨_, hnow, hl⟩ | ⟨hu, hold, hl⟩
    · rcases hpc' with rfl | rfl
      · cases hnow
      · cases hl
    · rw [List.map_append, List.mem_append]
      rintro (hmem | hmem)
      · exact h.unwritten u c' hold hl hmem
      · exact hu (h.apart u t c' c hold hc (List.mem_singleton.mp hmem))
  · intro u c' line hu' hl
    rcases pc_goto (fun p => p.call = some c' ∧ p.line = some line) ⟨hu', hl⟩ with
      ⟨_, hnow, hl⟩ | ⟨_, hold, hl⟩
    · rcases hpc' with rfl | rfl
      · cases hl
      · obtain rfl := Option.some.inj hnow
        obtain rfl := Option.some.inj hl
        exact List.mem_append_right _ (List.mem_singleton_self _)
    · exact List.mem_append_left _ (h.written u c' line hold hl)
  · intro u c' hdel
    rcases pc_goto (fun p => p = .delete c') hdel with ⟨_, hdel⟩ | ⟨_, hdel⟩
    · rcases hpc' with rfl | rfl <;> cases hdel
    · exact h.present u c' hdel

/-- The call goes on to `pc'`, with the file it has open. -/
theorem Ordered.goto {pc pc' : Pc} (h : Ordered old s chunks) (hpc : s.pc t = pc)
    (hcall : pc'.call = pc.call) (hline : pc'.line = pc.line)
    (hinode : pc'.inode = none ∨ pc'.inode = pc.inode)
    (hpresent : ∀ c, pc' ≠ .delete c) : Ordered old (s.goto t pc') chunks := by
  refine h.move rfl (fun _ hi => hi) (fun c hc => ?_) (fun i hi => ?_) hpresent h.returned
  · rw [hpc, ← hcall]
    exact ⟨hc, hline⟩
  · rcases hinode with hnone | hsame
    · rw [hnone] at hi
      cases hi
    · exact h.file t i (by rw [hpc, ← hsame, hi])

theorem Ordered.leave (h : Ordered old s chunks) : Ordered old (s.goto t .idle) chunks := by
  refine h.move rfl (fun _ hi => hi) (fun _ hc => ?_) (fun _ hi => ?_) (fun _ => ?_) h.returned
  · cases hc
  · cases hi
  · exact Pc.noConfusion

/-- One step of a call whose position is the end of the file. -/
theorem Ordered.go {l : Label} (h : Ordered old s chunks) (hg : Separate s l) (now : Int) :
    Inv old (goStep s l.thread now (s.pc l.thread)) := by
  cases hpc : s.pc l.thread with
  | idle => exact ⟨chunks, h⟩
  | testExists c =>
    refine ⟨chunks, ?_⟩
    show Ordered old (if (s.disk.entry .CHECKPOINT_FILE).isSome then s.goto l.thread (.testLength c)
      else s.goto l.thread (.openFile c)) chunks
    by_cases he : (s.disk.entry .CHECKPOINT_FILE).isSome
    · rw [if_pos he]
      exact h.goto hpc rfl rfl (.inl rfl) fun _ => Pc.noConfusion
    · rw [if_neg he]
      exact h.goto hpc rfl rfl (.inl rfl) fun _ => Pc.noConfusion
  | testLength c =>
    have hsmall : goStep s l.thread now (.testLength c) = s.goto l.thread (.openFile c) :=
      if_neg (Nat.not_lt.mpr hg.1)
    rw [hsmall]
    exact ⟨chunks, h.goto hpc rfl rfl (.inl rfl) fun _ => Pc.noConfusion⟩
  | delete c => exact absurd hpc (h.present _ c)
  | openFile c =>
    refine ⟨chunks, h.move (Disk.create_text _ _) (fun i hi => ?_) (fun c' hc => ?_) (fun i hi => ?_)
      (fun _ => Pc.noConfusion) h.returned⟩
    · rw [Disk.create_of_entry hi]
      exact hi
    · rw [hpc]
      exact ⟨hc, rfl⟩
    · rw [Disk.create_entry]
      exact hi
  | length c i => exact ⟨chunks, h.goto hpc rfl rfl (.inr rfl) fun _ => Pc.noConfusion⟩
  | seek c i len => exact ⟨chunks, h.goto hpc rfl rfl (.inr rfl) fun _ => Pc.noConfusion⟩
  | write c i pos => exact ⟨_, h.write hpc (hg.2 pos (congrArg Pc.position hpc)) (.inr rfl)⟩
  | sync c i line => exact ⟨chunks, h.goto hpc rfl rfl (.inr rfl) fun _ => Pc.noConfusion⟩
  | close c i line =>
    refine ⟨chunks, h.move rfl (fun _ hi => hi) (fun _ hc => ?_) (fun _ hi => ?_) (fun _ => Pc.noConfusion)
      fun r hr => ?_⟩
    · cases hc
    · cases hi
    · rcases List.mem_append.mp hr with hr | hr
      · exact h.returned r hr
      · rw [List.mem_singleton.mp hr]
        exact h.written l.thread c line (congrArg Pc.call hpc) (congrArg Pc.line hpc)

theorem Ordered.throw {l : Label} (h : Ordered old s chunks) (hg : Separate s l) (now : Int) (k : ℕ) :
    Inv old (throwStep s l.thread now k (s.pc l.thread)) := by
  by_cases hw : ∃ c i pos, s.pc l.thread = .write c i pos
  · obtain ⟨c, i, pos, hpc⟩ := hw
    rw [hpc]
    exact ⟨_, h.write hpc (hg.2 pos (congrArg Pc.position hpc)) (.inl rfl)⟩
  · have hidle : throwStep s l.thread now k (s.pc l.thread) = s.goto l.thread .idle := by
      unfold throwStep
      split
      · exact absurd ⟨_, _, _, ‹_›⟩ hw
      · rfl
    exact ⟨chunks, hidle ▸ h.leave⟩

/-- Every step keeps the pieces in order if its call writes at the end of the file. -/
theorem Ordered.step {s' : State} {l : Label} (h : Ordered old s chunks) (hg : Separate s l)
    (hs : step s l = some s') : Inv old s' := by
  unfold Checkpoint.step at hs
  cases hact : l.act with
  | enter tag =>
    rw [hact] at hs
    by_cases hpc : s.pc l.thread = .idle
    · obtain rfl := Option.some.inj ((if_pos hpc).symm.trans hs)
      exact ⟨chunks, h.enter tag⟩
    · exact absurd ((if_neg hpc).symm.trans hs) (by simp)
  | go now =>
    rw [hact] at hs
    by_cases hpc : s.pc l.thread = .idle
    · exact absurd ((if_pos hpc).symm.trans hs) (by simp)
    · obtain rfl := Option.some.inj ((if_neg hpc).symm.trans hs)
      exact h.go hg now
  | refuse =>
    rw [hact] at hs
    dsimp only at hs
    split at hs
    · exact absurd ‹_› (h.present _ _)
    · cases hs
  | throw now k =>
    rw [hact] at hs
    by_cases hpc : s.pc l.thread = .idle
    · exact absurd ((if_pos hpc).symm.trans hs) (by simp)
    · obtain rfl := Option.some.inj ((if_neg hpc).symm.trans hs)
      exact h.throw hg now k

end BypassVpn.CrashLog.Checkpoint
