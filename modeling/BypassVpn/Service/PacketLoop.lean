import BypassVpn.Lib.Transition
import BypassVpn.Packet.Processor

/-!
# `runKotlinPacketLoop`: one buffer, many workers

The reader of the fallback path reads every packet into the same buffer and hands a copy of it, with the
value of `currentConfig`, to the thread pool. The workers run under the lock of the output.

* `Reader`, `Task`, `Running`, `LoopState`; `step`: the reader, the workers, and what other threads do
  to `isRunning`, `currentConfig` and the executor.
* `Block`: what one `processPacket` writes.
* `LoopInv`; `Threw`: the task one of whose writes failed.
* **`packetLoop_isolated`**; `pool_drains`: the workers can always finish.
-/

namespace BypassVpn.PacketLoop

open Transition

/-- What the pool is given to run. -/
structure Task where
  /-- Which packet it is, in the order of the reads. -/
  number : ℕ
  packetCopy : Bytes
  length : ℕ
  cfgSnapshot : BypassConfig

/-- What `processPacket` writes when every write succeeds. -/
def Task.outputs (t : Task) (env : PacketEnv) : List Bytes :=
  ((processPacket env t.packetCopy t.length t.cfgSnapshot).outcome []).2

/-- What one `processPacket` writes: everything, or, when a write fails, what came before it and then at
most the packet itself, from the handler of the exception. The flag tells whether a write failed. -/
inductive Block (t : Task) : Bool → List Bytes → Prop
  | whole (env : PacketEnv) : Block t false (t.outputs env)
  | cut (env : PacketEnv) (k : ℕ) : Block t true ((t.outputs env).take k)
  | fallback (env : PacketEnv) (k : ℕ) :
      Block t true ((t.outputs env).take k ++ [t.packetCopy.take t.length])

/-- Where the reader stands. -/
inductive Reader where
  | testing
  | reading
  | copying (length : ℕ)
  | snapshotting (packetCopy : Bytes) (length : ℕ)
  | submitting (t : Task)
  | clearing
  | finished
  /-- `submit` has thrown `RejectedExecutionException`. -/
  | rejected

/-- After a read and before the next. -/
def Reader.between : Reader → Bool
  | .copying _ | .snapshotting _ _ | .submitting _ | .clearing => true
  | _ => false

/-- A packet has been read and is not handed over yet. -/
def Reader.holds : Reader → Bool
  | .copying _ | .snapshotting _ _ | .submitting _ => true
  | _ => false

/-- `executorService`: `null`, a pool, or a pool that was shut down. -/
inductive Executor where
  | null
  | running
  | shutDown
  deriving DecidableEq

/-- The task in the `synchronized` block. -/
structure Running where
  task : Task
  env : PacketEnv
  done : List Bytes
  remaining : List Bytes
  failed : Bool

/-- A task that has given the lock back, what it wrote, and whether a write failed. -/
structure Finished where
  task : Task
  out : List Bytes
  failed : Bool

/-- The reader, the executor, its tasks and the output. -/
structure LoopState where
  isRunning : Bool := true
  currentConfig : BypassConfig
  executor : Executor := .running
  reader : Reader := .testing
  buffer : Bytes := zeros 32767
  /-- The tasks that wait for the lock, each in its own worker. -/
  pool : List Task := []
  locked : Option Running := none
  finished : List Finished := []
  /-- The packets written to the TUN. -/
  written : List Bytes := []
  /-- The packets read. -/
  reads : List Bytes := []
  /-- The values `currentConfig` had between each read and the next. -/
  window : ℕ → List BypassConfig := fun _ => []
  /-- The packets that no executor has accepted. -/
  lost : List ℕ := []
  /-- The executor has been shut down, or was gone, at some time. -/
  stopped : Bool := false

/-- How `input.read` turns out. -/
inductive ReadOutcome where
  | packet (p : Bytes)
  /-- 0 or -1. -/
  | nothing
  | throws

/-- A step of the service, the reader or a worker. -/
inductive Label where
  | setRunning (b : Bool)
  | setConfig (config : BypassConfig)
  | setExecutor (e : Executor)
  /-- The reader goes on; `read` is how `input.read` turns out, where it is next. -/
  | reader (read : ReadOutcome)
  /-- The worker of the task at `i` takes the lock. -/
  | lock (i : ℕ) (env : PacketEnv)
  | write
  /-- A write throws; `fallback`: the handler goes on to write the packet itself. -/
  | writeFails (fallback : Bool)
  | unlock

/-- The steps of a task under the lock. -/
def Label.worker : Label → Bool
  | .lock _ _ | .write | .unlock => true
  | _ => false

namespace LoopState

variable (s : LoopState)

/-- `input.read(buffer.array())` stores a packet at the beginning of the buffer. -/
def store (p : Bytes) : LoopState :=
  { s with
    buffer := p ++ s.buffer.drop p.length
    reads := s.reads ++ [p]
    window := Function.update s.window s.reads.length [s.currentConfig]
    reader := .copying p.length }

/-- `currentConfig = config`. -/
def setConfig (config : BypassConfig) : LoopState :=
  let last := s.reads.length - 1
  { s with
    currentConfig := config
    window :=
      if s.reader.between then Function.update s.window last (s.window last ++ [config]) else s.window }

/-- `executorService?.submit { … }`. -/
def submit (t : Task) : LoopState :=
  match s.executor with
  | .null => { s with lost := s.lost ++ [t.number], reader := .clearing }
  | .running => { s with pool := s.pool ++ [t], reader := .clearing }
  | .shutDown => { s with lost := s.lost ++ [t.number], reader := .rejected }

end LoopState

/-- The next statement of the reader. -/
def readerStep (s : LoopState) (read : ReadOutcome) : Option LoopState :=
  match s.reader with
  | .testing => some { s with reader := if s.isRunning then .reading else .finished }
  | .reading =>
    match read with
    | .packet p => if 0 < p.length ∧ p.length ≤ s.buffer.length then some (s.store p) else none
    | .nothing => some { s with reader := .testing }
    | .throws => some { s with reader := .finished }
  | .copying length => some { s with reader := .snapshotting (copyOf s.buffer length) length }
  | .snapshotting packetCopy length =>
    some { s with reader := .submitting ⟨s.reads.length - 1, packetCopy, length, s.currentConfig⟩ }
  | .submitting t => some (s.submit t)
  | .clearing => some { s with reader := .testing }
  | .finished | .rejected => none

/-- One step; `none` where it cannot be taken. -/
def step (s : LoopState) : Label → Option LoopState
  | .setRunning b => some { s with isRunning := b }
  | .setConfig config => some (s.setConfig config)
  | .setExecutor e => some { s with executor := e, stopped := s.stopped || decide (e ≠ .running) }
  | .reader read => readerStep s read
  | .lock i env =>
    match s.locked, s.pool[i]? with
    | none, some t =>
      some { s with pool := s.pool.eraseIdx i, locked := some ⟨t, env, [], t.outputs env, false⟩ }
    | _, _ => none
  | .write =>
    match s.locked with
    | some ⟨t, env, done, w :: remaining, failed⟩ =>
      some { s with written := s.written ++ [w], locked := some ⟨t, env, done ++ [w], remaining, failed⟩ }
    | _ => none
  | .writeFails fallback =>
    match s.locked with
    | some ⟨t, env, done, _ :: _, failed⟩ =>
      -- a packet of less than 20 octets is written outside the `try` block of `processPacket`
      if fallback ∧ (failed ∨ t.length < 20) then none
      else
        let remaining := if fallback then [t.packetCopy.take t.length] else []
        some { s with locked := some ⟨t, env, done, remaining, true⟩ }
    | _ => none
  | .unlock =>
    match s.locked with
    | some ⟨t, _, done, [], failed⟩ =>
      some { s with finished := s.finished ++ [⟨t, done, failed⟩], locked := none }
    | _ => none

/-- The loop begins. -/
def init (config : BypassConfig) : LoopState := { currentConfig := config }

/-! ### What holds in every state -/

/-- The task has the packet as it was read, and a value that `currentConfig` had before the next read.
-/
structure TaskOk (s : LoopState) (t : Task) : Prop where
  packet : s.reads[t.number]? = some t.packetCopy
  length : t.length = t.packetCopy.length
  config : t.cfgSnapshot ∈ s.window t.number

/-- The packets in the hands of the reader. -/
def LoopState.handing (s : LoopState) : List ℕ := if s.reader.holds then [s.reads.length - 1] else []

/-- Where the packets read so far are. -/
def LoopState.numbers (s : LoopState) : List ℕ :=
  s.handing ++ (s.pool.map (·.number) ++ (s.locked.toList.map (·.task.number) ++
    (s.finished.map (·.task.number) ++ s.lost)))

/-- What the reader knows of the packet it has read. -/
def ReaderOk (s : LoopState) : Prop :=
  match s.reader with
  | .copying length => s.reads.getLast? = some (s.buffer.take length) ∧ (s.buffer.take length).length = length
  | .snapshotting packetCopy length => s.reads.getLast? = some packetCopy ∧ length = packetCopy.length
  | .submitting t => t.number = s.reads.length - 1 ∧ TaskOk s t
  | _ => True

/-- What the task under the lock has written, and what it still has to write. -/
def RunningOk (r : Running) : Prop :=
  (r.failed = false ∧ r.done ++ r.remaining = r.task.outputs r.env) ∨
  (r.failed = true ∧ ∃ k, r.done = (r.task.outputs r.env).take k ∧
    (r.remaining = [] ∨ r.remaining = [r.task.packetCopy.take r.task.length])) ∨
  (r.failed = true ∧ r.remaining = [] ∧
    ∃ k, r.done = (r.task.outputs r.env).take k ++ [r.task.packetCopy.take r.task.length])

/-- What holds in every state of a run. -/
structure LoopInv (s : LoopState) : Prop where
  buffer : s.buffer.length = 32767
  reader : ReaderOk s
  between : s.reader.between = true → s.reads ≠ [] ∧ s.currentConfig ∈ s.window (s.reads.length - 1)
  pool : ∀ t ∈ s.pool, TaskOk s t
  locked : ∀ r, s.locked = some r → TaskOk s r.task ∧ RunningOk r
  finished : ∀ f ∈ s.finished, TaskOk s f.task ∧ Block f.task f.failed f.out
  written : s.written = s.finished.flatMap (·.out) ++ (s.locked.map (·.done)).getD []
  numbers : s.numbers.Perm (List.range s.reads.length)
  executor : s.stopped = false → s.executor = .running
  lost : s.stopped = false → s.lost = []

theorem loopInv_init (config : BypassConfig) : LoopInv (init config) where
  buffer := List.length_replicate
  reader := trivial
  between h := nomatch h
  pool _ ht := nomatch ht
  locked _ hr := nomatch hr
  finished _ hf := nomatch hf
  written := rfl
  numbers := .refl _
  executor _ := rfl
  lost _ := rfl

variable {s s' : LoopState} {t : Task}

theorem TaskOk.lt (h : TaskOk s t) : t.number < s.reads.length :=
  (List.getElem?_eq_some_iff.mp h.packet).1

/-- More packets are read and `currentConfig` has more values. -/
theorem TaskOk.mono (h : TaskOk s t) (hreads : ∀ n < s.reads.length, s'.reads[n]? = s.reads[n]?)
    (hwindow : ∀ n < s.reads.length, ∀ c ∈ s.window n, c ∈ s'.window n) : TaskOk s' t where
  packet := (hreads _ h.lt).trans h.packet
  length := h.length
  config := hwindow _ h.lt _ h.config

/-- The reader, the buffer, the packets and the configuration stay. -/
structure SameReader (s s' : LoopState) : Prop where
  buffer : s'.buffer = s.buffer
  reader : s'.reader = s.reader
  reads : s'.reads = s.reads
  window : s'.window = s.window
  currentConfig : s'.currentConfig = s.currentConfig

theorem SameReader.taskOk (h : SameReader s s') (ht : TaskOk s t) : TaskOk s' t :=
  ht.mono (fun _ _ => by rw [h.reads]) fun _ _ _ hc => h.window ▸ hc

theorem SameReader.readerOk (h : SameReader s s') (hr : ReaderOk s) : ReaderOk s' := by
  unfold ReaderOk at hr ⊢
  rw [h.reader]
  cases hreader : s.reader <;> simp only [hreader, h.reads, h.buffer] at hr ⊢
  · exact hr
  · exact hr
  · exact ⟨hr.1, h.taskOk hr.2⟩

section Running

variable {env : PacketEnv} {done remaining : List Bytes} {w : Bytes} {failed : Bool}

theorem RunningOk.write (h : RunningOk ⟨t, env, done, w :: remaining, failed⟩) :
    RunningOk ⟨t, env, done ++ [w], remaining, failed⟩ := by
  rcases h with ⟨hf, hrun⟩ | ⟨hf, k, hdone, hrem | hrem⟩ | ⟨hf, hrem, -⟩
  · refine .inl ⟨hf, ?_⟩
    rw [← hrun, List.append_assoc]
    rfl
  · cases hrem
  · obtain ⟨hw, hnil⟩ := List.cons.inj hrem
    refine .inr (.inr ⟨hf, hnil, k, ?_⟩)
    dsimp only at hdone ⊢
    rw [hdone, hw]
  · cases hrem

theorem RunningOk.fails (h : RunningOk ⟨t, env, done, w :: remaining, failed⟩) (fallback : Bool) :
    RunningOk ⟨t, env, done, if fallback then [t.packetCopy.take t.length] else [], true⟩ := by
  have hcut : ∃ k, done = (t.outputs env).take k := by
    rcases h with ⟨-, hrun⟩ | ⟨-, k, hdone, -⟩ | ⟨-, hrem, -⟩
    · exact ⟨done.length, by rw [← show done ++ w :: remaining = _ from hrun, List.take_left]⟩
    · exact ⟨k, hdone⟩
    · cases hrem
  obtain ⟨k, hdone⟩ := hcut
  refine .inr (.inl ⟨rfl, k, hdone, ?_⟩)
  cases fallback
  · exact .inl rfl
  · exact .inr rfl

theorem RunningOk.block (h : RunningOk ⟨t, env, done, [], failed⟩) : Block t failed done := by
  rcases h with ⟨hf, hrun⟩ | ⟨hf, k, hdone, -⟩ | ⟨hf, -, k, hdone⟩ <;> dsimp only at hf
  · have hrun : done ++ [] = t.outputs env := hrun
    rw [hf, ← List.append_nil done, hrun]
    exact .whole env
  · have hdone : done = (t.outputs env).take k := hdone
    rw [hf, hdone]
    exact .cut env k
  · have hdone : done = (t.outputs env).take k ++ [t.packetCopy.take t.length] := hdone
    rw [hf, hdone]
    exact .fallback env k

end Running

/-! ### What one step preserves -/

/-- A step of a worker, or of a thread that sets `isRunning` or the executor. -/
theorem LoopInv.beside (h : LoopInv s) (hs : SameReader s s')
    (hpool : ∀ t ∈ s'.pool, TaskOk s t)
    (hlocked : ∀ r, s'.locked = some r → TaskOk s r.task ∧ RunningOk r)
    (hfinished : ∀ f ∈ s'.finished, TaskOk s f.task ∧ Block f.task f.failed f.out)
    (hwritten : s'.written = s'.finished.flatMap (·.out) ++ (s'.locked.map (·.done)).getD [])
    (hnumbers : s'.numbers.Perm s.numbers)
    (hexecutor : s'.stopped = false → s'.executor = .running ∧ s'.lost = []) : LoopInv s' where
  buffer := by
    rw [hs.buffer]
    exact h.buffer
  reader := hs.readerOk h.reader
  between hb := by
    rw [hs.reads, hs.window, hs.currentConfig]
    exact h.between (hs.reader ▸ hb)
  pool t ht := hs.taskOk (hpool t ht)
  locked r hr := ⟨hs.taskOk (hlocked r hr).1, (hlocked r hr).2⟩
  finished f hf := ⟨hs.taskOk (hfinished f hf).1, (hfinished f hf).2⟩
  written := hwritten
  numbers := by
    rw [hs.reads]
    exact hnumbers.trans h.numbers
  executor hst := (hexecutor hst).1
  lost hst := (hexecutor hst).2

theorem LoopInv.lock {i : ℕ} {env : PacketEnv} (h : LoopInv s) (hs : step s (.lock i env) = some s') :
    LoopInv s' := by
  simp only [step] at hs
  split at hs
  · next t hl ht =>
    cases hs
    obtain ⟨hi, rfl⟩ := List.getElem?_eq_some_iff.mp ht
    refine h.beside ⟨rfl, rfl, rfl, rfl, rfl⟩
      (fun t ht => h.pool t (List.mem_of_mem_eraseIdx ht)) ?_ h.finished ?_ ?_
      fun hst => ⟨h.executor hst, h.lost hst⟩
    · intro r hr
      cases hr
      exact ⟨h.pool _ (List.getElem_mem hi), .inl ⟨rfl, rfl⟩⟩
    · rw [h.written, hl]
      rfl
    · have hperm : (s.pool.map (·.number)).Perm (s.pool[i].number :: (s.pool.eraseIdx i).map (·.number)) :=
        ((List.getElem_cons_eraseIdx_perm hi).map _).symm
      simp only [LoopState.numbers, hl, Option.toList_none, Option.toList_some, List.map_nil, List.map_cons,
        List.nil_append, List.singleton_append]
      refine List.Perm.append_left _ ?_
      exact List.perm_middle.trans (hperm.symm.append_right _)
  · cases hs

theorem LoopInv.write (h : LoopInv s) (hs : step s .write = some s') : LoopInv s' := by
  simp only [step] at hs
  split at hs
  · next t env done w remaining failed hl =>
    cases hs
    obtain ⟨htask, hrun⟩ := h.locked _ hl
    refine h.beside ⟨rfl, rfl, rfl, rfl, rfl⟩ h.pool ?_ h.finished ?_ ?_ fun hst =>
      ⟨h.executor hst, h.lost hst⟩
    · intro r hr
      cases hr
      exact ⟨htask, hrun.write⟩
    · rw [h.written, hl]
      exact List.append_assoc ..
    · simp only [LoopState.numbers, hl]
      exact .refl _
  · cases hs

theorem LoopInv.writeFails {fallback : Bool} (h : LoopInv s) (hs : step s (.writeFails fallback) = some s') :
    LoopInv s' := by
  simp only [step] at hs
  split at hs
  · next t env done w remaining failed hl =>
    obtain ⟨htask, hrun⟩ := h.locked _ hl
    split at hs
    · cases hs
    · next hfallback =>
      cases hs
      refine h.beside ⟨rfl, rfl, rfl, rfl, rfl⟩ h.pool ?_ h.finished ?_ ?_ fun hst =>
        ⟨h.executor hst, h.lost hst⟩
      · intro r hr
        cases hr
        exact ⟨htask, hrun.fails fallback⟩
      · rw [h.written, hl]
        rfl
      · simp only [LoopState.numbers, hl]
        exact .refl _
  · cases hs

theorem LoopInv.unlock (h : LoopInv s) (hs : step s .unlock = some s') : LoopInv s' := by
  simp only [step] at hs
  split at hs
  · next t env done failed hl =>
    cases hs
    obtain ⟨htask, hrun⟩ := h.locked _ hl
    refine h.beside ⟨rfl, rfl, rfl, rfl, rfl⟩ h.pool (fun r hr => nomatch hr) ?_ ?_ ?_
      fun hst => ⟨h.executor hst, h.lost hst⟩
    · intro f hf
      rcases List.mem_append.mp hf with hf | hf
      · exact h.finished f hf
      · cases List.mem_singleton.mp hf
        exact ⟨htask, hrun.block⟩
    · rw [h.written, hl, List.flatMap_append]
      simp
    · simp only [LoopState.numbers, hl, Option.toList_none, Option.toList_some, List.map_nil, List.map_cons,
        List.map_append, List.nil_append, List.singleton_append]
      refine List.Perm.append_left _ (List.Perm.append_left _ ?_)
      rw [List.append_assoc]
      exact List.perm_middle
  · cases hs

theorem LoopInv.setConfig (h : LoopInv s) (config : BypassConfig) : LoopInv (s.setConfig config) := by
  have htask : ∀ t, TaskOk s t → TaskOk (s.setConfig config) t := by
    intro t ht
    refine ht.mono (fun _ _ => rfl) fun n _ c hc => ?_
    simp only [LoopState.setConfig]
    split
    · by_cases hn : n = s.reads.length - 1
      · rw [hn, Function.update_self]
        exact List.mem_append_left _ (hn ▸ hc)
      · rwa [Function.update_of_ne hn]
    · exact hc
  refine
    { buffer := h.buffer
      reader := ?_
      between := ?_
      pool := fun t ht => htask t (h.pool t ht)
      locked := fun r hr => ⟨htask _ (h.locked r hr).1, (h.locked r hr).2⟩
      finished := fun f hf => ⟨htask _ (h.finished f hf).1, (h.finished f hf).2⟩
      written := h.written
      numbers := h.numbers
      executor := h.executor
      lost := h.lost }
  · have hr := h.reader
    unfold ReaderOk at hr ⊢
    change match s.reader with | .copying _ => _ | .snapshotting _ _ => _ | .submitting _ => _ | _ => _
    cases hreader : s.reader <;> simp only [hreader] at hr ⊢
    · exact hr
    · exact hr
    · exact ⟨hr.1, htask _ hr.2⟩
  · intro hb
    have hb : s.reader.between = true := hb
    refine ⟨(h.between hb).1, ?_⟩
    simp only [LoopState.setConfig, hb, if_true, Function.update_self]
    exact List.mem_append_right _ (List.mem_singleton_self config)

theorem LoopInv.store {p : Bytes} (h : LoopInv s) (hr : s.reader = .reading)
    (hlen : p.length ≤ s.buffer.length) :
    LoopInv (s.store p) := by
  have htask : ∀ t, TaskOk s t → TaskOk (s.store p) t := by
    intro t ht
    refine ht.mono (fun n hn => List.getElem?_append_left hn) fun n hn c hc => ?_
    change c ∈ Function.update s.window s.reads.length _ n
    rwa [Function.update_of_ne (Nat.ne_of_lt hn)]
  have hlast : (s.reads ++ [p]).length - 1 = s.reads.length := by simp
  refine
    { buffer := ?_
      reader := ⟨?_, ?_⟩
      between := fun _ => ⟨by simp [LoopState.store], ?_⟩
      pool := fun t ht => htask t (h.pool t ht)
      locked := fun r hr => ⟨htask _ (h.locked r hr).1, (h.locked r hr).2⟩
      finished := fun f hf => ⟨htask _ (h.finished f hf).1, (h.finished f hf).2⟩
      written := h.written
      numbers := ?_
      executor := h.executor
      lost := h.lost }
  · change (p ++ s.buffer.drop p.length).length = 32767
    rw [List.length_append, List.length_drop, ← h.buffer]
    omega
  · change (s.reads ++ [p]).getLast? = some ((p ++ s.buffer.drop p.length).take p.length)
    rw [List.getLast?_append, List.take_left]
    rfl
  · change ((p ++ s.buffer.drop p.length).take p.length).length = p.length
    rw [List.take_left]
  · change s.currentConfig ∈ Function.update s.window s.reads.length [s.currentConfig]
      ((s.reads ++ [p]).length - 1)
    rw [hlast, Function.update_self]
    exact List.mem_singleton_self _
  · have hhanding : s.handing = [] := by rw [LoopState.handing, hr]; rfl
    have hnumbers := h.numbers
    rw [LoopState.numbers, hhanding, List.nil_append] at hnumbers
    change ([(s.reads ++ [p]).length - 1] ++ _).Perm (List.range (s.reads ++ [p]).length)
    rw [hlast, List.length_append, List.length_singleton, List.range_succ]
    exact (hnumbers.cons _).trans (List.perm_append_singleton _ _).symm

/-- The reader goes on, with the same packets in its hands. -/
theorem LoopInv.moves {r : Reader} (h : LoopInv s) (hok : ReaderOk { s with reader := r })
    (hbetween : r.between = true → s.reader.between = true) (hholds : r.holds = s.reader.holds) :
    LoopInv { s with reader := r } :=
  { h with
    reader := hok
    between := fun hb => h.between (hbetween hb)
    pool := fun t ht => ⟨(h.pool t ht).packet, (h.pool t ht).length, (h.pool t ht).config⟩
    locked := fun r hr =>
      ⟨⟨(h.locked r hr).1.packet, (h.locked r hr).1.length, (h.locked r hr).1.config⟩, (h.locked r hr).2⟩
    finished := fun f hf =>
      ⟨⟨(h.finished f hf).1.packet, (h.finished f hf).1.length, (h.finished f hf).1.config⟩,
        (h.finished f hf).2⟩
    numbers := by
      have hn := h.numbers
      unfold LoopState.numbers LoopState.handing at hn ⊢
      rw [← hholds] at hn
      exact hn }

theorem LoopInv.leaves {r : Reader} (h : LoopInv s) (hbetween : r.between = false) (hholds : r.holds = false)
    (hreader : s.reader.holds = false) : LoopInv { s with reader := r } := by
  refine h.moves ?_ (fun hb => absurd (hbetween.symm.trans hb) (by simp)) (hholds.trans hreader.symm)
  cases r with
  | copying _ | snapshotting _ _ | submitting _ => cases hholds
  | _ => exact trivial

/-- The packet goes from the reader to the pool, or is lost. -/
theorem LoopInv.handsOver {r : Reader} {pool : List Task} {lost : List ℕ} (h : LoopInv s)
    (hr : s.reader = .submitting t) (hr' : r = .clearing ∨ r = .rejected) (hpool : ∀ u ∈ pool, TaskOk s u)
    (hnumbers : (pool.map (·.number) ++ (s.locked.toList.map (·.task.number) ++
      (s.finished.map (·.task.number) ++ lost))).Perm s.numbers)
    (hlost : s.stopped = false → lost = []) :
    LoopInv { s with reader := r, pool := pool, lost := lost } := by
  have hholds : r.holds = false := by rcases hr' with rfl | rfl <;> rfl
  refine
    { h with
      reader := ?_
      between := fun hb => h.between (by rw [hr]; rfl)
      pool := fun u hu => ⟨(hpool u hu).packet, (hpool u hu).length, (hpool u hu).config⟩
      locked := fun r hr =>
        ⟨⟨(h.locked r hr).1.packet, (h.locked r hr).1.length, (h.locked r hr).1.config⟩, (h.locked r hr).2⟩
      finished := fun f hf =>
        ⟨⟨(h.finished f hf).1.packet, (h.finished f hf).1.length, (h.finished f hf).1.config⟩,
          (h.finished f hf).2⟩
      numbers := ?_
      lost := hlost }
  · rcases hr' with rfl | rfl <;> exact trivial
  · unfold LoopState.numbers LoopState.handing
    dsimp only
    rw [hholds]
    exact hnumbers.trans h.numbers

theorem LoopInv.submit (h : LoopInv s) (hr : s.reader = .submitting t) : LoopInv (s.submit t) := by
  obtain ⟨hnumber, htask⟩ : t.number = s.reads.length - 1 ∧ TaskOk s t := by
    have hok := h.reader
    unfold ReaderOk at hok
    rwa [hr] at hok
  have hnumbers : s.numbers = t.number :: (s.pool.map (·.number) ++ (s.locked.toList.map (·.task.number) ++
      (s.finished.map (·.task.number) ++ s.lost))) := by
    rw [LoopState.numbers, LoopState.handing, hr, hnumber]
    rfl
  have hlost : ∀ l : List ℕ, (l ++ (s.locked.toList.map (·.task.number) ++
      (s.finished.map (·.task.number) ++ (s.lost ++ [t.number])))).Perm
      (t.number :: (l ++ (s.locked.toList.map (·.task.number) ++
        (s.finished.map (·.task.number) ++ s.lost)))) := by
    intro l
    simp only [← List.append_assoc]
    exact List.perm_append_singleton _ _
  unfold LoopState.submit
  split
  case h_1 he =>
    refine h.handsOver hr (.inl rfl) h.pool (hnumbers ▸ hlost _) fun hst => ?_
    exact absurd ((h.executor hst).symm.trans he) (by simp)
  case h_2 he =>
    refine h.handsOver hr (.inl rfl) (fun u hu => ?_) ?_ h.lost
    · rcases List.mem_append.mp hu with hu | hu
      · exact h.pool u hu
      · exact List.mem_singleton.mp hu ▸ htask
    · rw [hnumbers, List.map_append, List.append_assoc]
      exact List.perm_middle
  case h_3 he =>
    refine h.handsOver hr (.inr rfl) h.pool (hnumbers ▸ hlost _) fun hst => ?_
    exact absurd ((h.executor hst).symm.trans he) (by simp)

theorem LoopInv.readerStep {read : ReadOutcome} (h : LoopInv s) (hs : readerStep s read = some s') :
    LoopInv s' := by
  have hok := h.reader
  unfold ReaderOk at hok
  cases hr : s.reader <;> simp only [PacketLoop.readerStep, hr] at hs hok
  case testing =>
    cases hs
    exact h.leaves (by split <;> rfl) (by split <;> rfl) (by rw [hr]; rfl)
  case reading =>
    cases read with
    | packet p =>
      dsimp only at hs
      split at hs
      · next hp =>
        cases hs
        exact h.store hr hp.2
      · cases hs
    | nothing =>
      cases hs
      exact h.leaves rfl rfl (by rw [hr]; rfl)
    | throws =>
      cases hs
      exact h.leaves rfl rfl (by rw [hr]; rfl)
  case copying length =>
    cases hs
    refine h.moves (r := .snapshotting _ _) ?_ (fun _ => by rw [hr]; rfl) (by rw [hr]; rfl)
    have hle : length ≤ s.buffer.length := by
      rw [← hok.2, List.length_take]
      exact Nat.min_le_right ..
    exact ⟨by rw [copyOf_eq hle]; exact hok.1, by rw [copyOf_eq hle]; exact hok.2.symm⟩
  case snapshotting packetCopy length =>
    cases hs
    obtain ⟨hne, hconfig⟩ := h.between (by rw [hr]; rfl)
    refine h.moves (r := .submitting _) ⟨rfl, ?_, hok.2, hconfig⟩ (fun _ => by rw [hr]; rfl) (by rw [hr]; rfl)
    rw [← List.getLast?_eq_getElem?]
    exact hok.1
  case submitting t =>
    cases hs
    exact h.submit hr
  case clearing =>
    cases hs
    exact h.leaves rfl rfl (by rw [hr]; rfl)
  case finished | rejected => cases hs

theorem loopInv_step {l : Label} (h : LoopInv s) (hs : step s l = some s') : LoopInv s' := by
  cases l with
  | setRunning b =>
    cases hs
    exact h.beside ⟨rfl, rfl, rfl, rfl, rfl⟩ h.pool h.locked h.finished h.written (.refl _)
      fun hst => ⟨h.executor hst, h.lost hst⟩
  | setExecutor e =>
    cases hs
    refine h.beside ⟨rfl, rfl, rfl, rfl, rfl⟩ h.pool h.locked h.finished h.written (.refl _) fun hst => ?_
    simp only [Bool.or_eq_false_iff, decide_eq_false_iff_not, not_not] at hst
    exact ⟨hst.2, h.lost hst.1⟩
  | setConfig config =>
    cases hs
    exact h.setConfig config
  | reader read => exact h.readerStep hs
  | lock i env => exact h.lock hs
  | write => exact h.write hs
  | writeFails fallback => exact h.writeFails hs
  | unlock => exact h.unlock hs

variable {config : BypassConfig}

theorem loopInv (h : Reachable step (init config) anyStep s) : LoopInv s :=
  h.invariant (loopInv_init config) fun _ _ _ _ hi _ hs => loopInv_step hi hs

/-! ### The workers can always finish -/

/-- A run of the workers alone, to a state in which nothing waits or runs. -/
structure Drains (s s' : LoopState) : Prop where
  run : Reachable step s (fun _ l => l.worker = true) s'
  locked : s'.locked = none
  reader : s'.reader = s.reader
  reads : s'.reads = s.reads
  lost : s'.lost = s.lost

theorem drains_locked {env : PacketEnv} {done remaining : List Bytes} {failed : Bool}
    (h : s.locked = some ⟨t, env, done, remaining, failed⟩) : ∃ s', Drains s s' ∧ s'.pool = s.pool := by
  induction remaining generalizing s done with
  | nil =>
    refine ⟨{ s with finished := s.finished ++ [⟨t, done, failed⟩], locked := none },
      ⟨?_, rfl, rfl, rfl, rfl⟩, rfl⟩
    exact Reachable.init.next .unlock rfl (by simp only [step, h])
  | cons w remaining ih =>
    let s₁ : LoopState :=
      { s with written := s.written ++ [w], locked := some ⟨t, env, done ++ [w], remaining, failed⟩ }
    have hw : Reachable step s (fun _ l => l.worker = true) s₁ :=
      Reachable.init.next .write rfl (by simp only [step, h, s₁])
    obtain ⟨s', hd, hpool⟩ := ih (s := s₁) rfl
    exact ⟨s', ⟨hw.trans hd.run, hd.locked, hd.reader, hd.reads, hd.lost⟩, hpool⟩

theorem drains_pool (env : PacketEnv) (hlocked : s.locked = none) : ∃ s', Drains s s' ∧ s'.pool = [] := by
  generalize hpool : s.pool = pool
  induction pool generalizing s with
  | nil => exact ⟨s, ⟨.init, hlocked, rfl, rfl, rfl⟩, hpool⟩
  | cons t pool ih =>
    let s₁ : LoopState := { s with pool := pool, locked := some ⟨t, env, [], t.outputs env, false⟩ }
    have hl : Reachable step s (fun _ l => l.worker = true) s₁ :=
      Reachable.init.next (.lock 0 env) rfl (by simp [step, hlocked, hpool, s₁])
    obtain ⟨s₂, hd, hp⟩ := drains_locked (s := s₁) rfl
    obtain ⟨s', hd', hp'⟩ := ih hd.locked hp
    exact ⟨s', ⟨(hl.trans hd.run).trans hd'.run, hd'.locked, hd'.reader.trans hd.reader,
      hd'.reads.trans hd.reads, hd'.lost.trans hd.lost⟩, hp'⟩

/-- The resolver finds nothing and the smallest number is drawn. -/
def plainEnv : PacketEnv where
  resolver _ := pure []
  random := lowRandom

/-- **The pool drains**: from every state the workers alone can finish every task. -/
theorem pool_drains (s : LoopState) : ∃ s', Drains s s' ∧ s'.pool = [] := by
  cases hl : s.locked with
  | none => exact drains_pool plainEnv hl
  | some r =>
    obtain ⟨t, env, done, remaining, failed⟩ := r
    obtain ⟨s₁, hd, -⟩ := drains_locked hl
    obtain ⟨s', hd', hp⟩ := drains_pool plainEnv hd.locked
    exact ⟨s', ⟨hd.run.trans hd'.run, hd'.locked, hd'.reader.trans hd.reader, hd'.reads.trans hd.reads,
      hd'.lost.trans hd.lost⟩, hp⟩

/-! ### The writes that failed -/

/-- A write of the task `number` has failed. -/
def Threw (tr : List (LoopState × Label)) (number : ℕ) : Prop :=
  ∃ x ∈ tr, (∃ fallback, x.2 = .writeFails fallback) ∧ x.1.locked.map (·.task.number) = some number

/-- The flags stand for writes that failed. -/
structure Accounted (tr : List (LoopState × Label)) (s : LoopState) : Prop where
  locked : ∀ r, s.locked = some r → r.failed = true → Threw tr r.task.number
  finished : ∀ f ∈ s.finished, f.failed = true → Threw tr f.task.number

section Accounted

variable {tr : List (LoopState × Label)} {n : ℕ}

theorem Threw.cons (h : Threw tr n) (x : LoopState × Label) : Threw (x :: tr) n := by
  obtain ⟨y, hy, hl⟩ := h
  exact ⟨y, List.mem_cons_of_mem x hy, hl⟩

/-- A step that has nothing to do with the tasks under way. -/
theorem Accounted.of_eq (h : Accounted tr s) (x : LoopState × Label) (hlocked : s'.locked = s.locked)
    (hfinished : s'.finished = s.finished) : Accounted (x :: tr) s' where
  locked r hr hf := (h.locked r (hlocked ▸ hr) hf).cons x
  finished f hm hf := (h.finished f (hfinished ▸ hm) hf).cons x

theorem readerStep_tasks {read : ReadOutcome} (h : readerStep s read = some s') :
    s'.locked = s.locked ∧ s'.finished = s.finished := by
  unfold readerStep at h
  cases hr : s.reader <;> simp only [hr] at h
  case reading =>
    cases read with
    | packet p =>
      dsimp only at h
      split at h
      · cases h
        exact ⟨rfl, rfl⟩
      · cases h
    | nothing | throws =>
      cases h
      exact ⟨rfl, rfl⟩
  case submitting t =>
    cases h
    unfold LoopState.submit
    split <;> exact ⟨rfl, rfl⟩
  case finished | rejected => cases h
  all_goals
    cases h
    exact ⟨rfl, rfl⟩

theorem Accounted.step {l : Label} (h : Accounted tr s) (hs : PacketLoop.step s l = some s') :
    Accounted ((s, l) :: tr) s' := by
  cases l with
  | setRunning b | setConfig config | setExecutor e =>
    cases hs
    exact h.of_eq _ rfl rfl
  | reader read =>
    obtain ⟨hlocked, hfinished⟩ := readerStep_tasks hs
    exact h.of_eq _ hlocked hfinished
  | lock i env =>
    simp only [PacketLoop.step] at hs
    split at hs
    · cases hs
      refine ⟨fun r hr hf => ?_, fun f hm hf => (h.finished f hm hf).cons _⟩
      cases hr
      cases hf
    · cases hs
  | write =>
    simp only [PacketLoop.step] at hs
    split at hs
    · next t env done w remaining failed hl =>
      cases hs
      refine ⟨fun r hr hf => ?_, fun f hm hf => (h.finished f hm hf).cons _⟩
      cases hr
      exact (h.locked _ hl hf).cons _
    · cases hs
  | writeFails fallback =>
    simp only [PacketLoop.step] at hs
    split at hs
    · next t env done w remaining failed hl =>
      split at hs
      · cases hs
      · cases hs
        refine ⟨fun r hr _ => ?_, fun f hm hf => (h.finished f hm hf).cons _⟩
        cases hr
        exact ⟨_, List.mem_cons_self, ⟨fallback, rfl⟩, by rw [hl]; rfl⟩
    · cases hs
  | unlock =>
    simp only [PacketLoop.step] at hs
    split at hs
    · next t env done failed hl =>
      cases hs
      refine ⟨fun r hr => (nomatch hr), fun f hm hf => ?_⟩
      rcases List.mem_append.mp hm with hm | hm
      · exact (h.finished f hm hf).cons _
      · cases List.mem_singleton.mp hm
        exact (h.locked _ hl hf).cons _
    · cases hs

theorem accounted (h : Trace step (init config) tr s) : Accounted tr s := by
  induction h with
  | init => exact ⟨fun _ hr => (nomatch hr), fun _ hf => (nomatch hf)⟩
  | step _ hs ih => exact ih.step hs

end Accounted

/-! ### Isolation -/

/-- What `processPacket` writes for the task: everything, unless one of its own writes has failed. -/
def Written (tr : List (LoopState × Label)) (t : Task) (out : List Bytes) : Prop :=
  ∃ failed, Block t failed out ∧ (failed = true → Threw tr t.number)

/-- What is promised of a run: the packets do not mix. -/
structure Isolated (tr : List (LoopState × Label)) (s : LoopState) : Prop where
  /-- The output consists of the blocks of the finished tasks, each contiguous, and of the beginning of
  the block of the task under the lock. -/
  written : ∃ begun, s.written = s.finished.flatMap (·.out) ++ begun ∧ (s.locked = none → begun = []) ∧
    ∀ r, s.locked = some r → ∃ out, Written tr r.task out ∧ begun <+: out
  blocks : ∀ f ∈ s.finished, Written tr f.task f.out
  /-- Every task has its packet exactly as read, and a value `currentConfig` had before the next read.
  -/
  tasks : ∀ t, (t ∈ s.pool ∨ (∃ r, s.locked = some r ∧ r.task = t) ∨ ∃ f ∈ s.finished, f.task = t) →
    TaskOk s t
  /-- Every packet read is in one place. -/
  once : s.numbers.Perm (List.range s.reads.length)
  kept : s.stopped = false → s.lost = []
  /-- The workers can finish all tasks, each of them once. -/
  finishes : ∃ s', Reachable step s (fun _ l => l.worker = true) s' ∧
    (s.handing ++ (s'.finished.map (·.task.number) ++ s.lost)).Perm (List.range s.reads.length)

theorem RunningOk.begun {r : Running} (h : RunningOk r) : ∃ out, Block r.task r.failed out ∧
    r.done <+: out := by
  rcases h with ⟨hf, hrun⟩ | ⟨hf, k, hdone, -⟩ | ⟨hf, -, k, hdone⟩ <;> rw [hf]
  · exact ⟨_, .whole r.env, hrun ▸ List.prefix_append ..⟩
  · exact ⟨_, .cut r.env k, hdone ▸ List.prefix_refl _⟩
  · exact ⟨_, .fallback r.env k, hdone ▸ List.prefix_refl _⟩

/-- **The packet loop keeps packets apart.** Whatever is read, however `currentConfig`, `isRunning` and
the executor are set by other threads, and however the reader and the workers are interleaved. -/
theorem packetLoop_isolated {tr : List (LoopState × Label)} (h : Trace step (init config) tr s) :
    Isolated tr s := by
  have hi := loopInv h.reachable
  have ha := accounted h
  refine ⟨⟨(s.locked.map (·.done)).getD [], hi.written, ?_, ?_⟩, fun f hf =>
    ⟨f.failed, (hi.finished f hf).2, ha.finished f hf⟩, ?_, hi.numbers, hi.lost, ?_⟩
  · intro hl
    rw [hl]
    rfl
  · intro r hr
    rw [hr]
    obtain ⟨out, hblock, hbegun⟩ := (hi.locked r hr).2.begun
    exact ⟨out, ⟨r.failed, hblock, ha.locked r hr⟩, hbegun⟩
  · rintro t (ht | ⟨r, hr, rfl⟩ | ⟨f, hf, rfl⟩)
    · exact hi.pool t ht
    · exact (hi.locked r hr).1
    · exact (hi.finished f hf).1
  · obtain ⟨s', hd, hpool⟩ := pool_drains s
    have hrun : Reachable step (init config) anyStep s' := by
      refine h.reachable.trans ?_
      exact hd.run.invariant .init fun _ _ _ _ ih _ hs => .step ih trivial hs
    have hnumbers := (loopInv hrun).numbers
    rw [LoopState.numbers, hpool, hd.locked, hd.lost, hd.reads] at hnumbers
    have hhanding : s'.handing = s.handing := by rw [LoopState.handing, LoopState.handing,
      hd.reader, hd.reads]
    rw [hhanding] at hnumbers
    exact ⟨s', hd.run, hnumbers⟩

/-- Two packets are read, `currentConfig` changes in between, and the second task is the first to run.
-/
def twoPackets : List Label :=
  let next : Label := .reader .nothing
  [next, .reader (.packet [1, 2, 3]), next, next, next, .setConfig { dnsInterceptEnabled := false }, next,
    next, .reader (.packet [4, 5]), next, next, next,
    .lock 1 plainEnv, .write, .unlock, .lock 0 plainEnv, .write, .unlock]

theorem packetLoop_isolated_twoPackets :
    ∃ s tr, Trace step (init {}) tr s ∧ s.written = [[4, 5], [1, 2, 3]] ∧
      s.reads = [[1, 2, 3], [4, 5]] ∧ Isolated tr s := by
  obtain ⟨s, hs, hf⟩ := reachable_of_run step (init {}) (c := fun _ _ => true) anyStep_of_true twoPackets
    (fun s => (s.written, s.reads)) (b := ([[4, 5], [1, 2, 3]], [[1, 2, 3], [4, 5]])) (by decide +kernel)
  simp only [Prod.mk.injEq] at hf
  obtain ⟨tr, htr⟩ := hs.trace
  exact ⟨s, tr, htr, hf.1, hf.2, packetLoop_isolated htr⟩

end BypassVpn.PacketLoop
