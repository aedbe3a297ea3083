import BypassVpn.Tun2socks.Bridge

/-!
# The teardown of the tun2socks bridge

Every path to `BReactor_Free` releases what was attached to the reactor, the latest first, but for one:
the label `fail_udpmode`, where `lwip_init_job` is attached and set, does not free it.

* `ReactorPart`: the part of the state that is about the reactor; `ReactorOk`: what is attached to it,
  with `ReactorOk.attach`, `ReactorOk.release` and `ReactorOk.turn`.
* `frame`: what is attached at each statement; `TearInv`: it is, unless `BAlloc` has failed.
* **`tornDown_iff`**: at `BReactor_Free` all is released if and only if `BAlloc` has not failed.
-/

namespace BypassVpn.Tun2socks

open Ledger Transition

/-- What the reactor is about. -/
structure ReactorPart where
  objects : List (Ledger.Event Obj)
  regs : List Registration
  clients : List (ℕ × Client)
  nextClient : ℕ

/-- The part of a state. -/
def State.reactorPart (s : State) : ReactorPart where
  objects := s.objects
  regs := s.regs
  clients := s.clients
  nextClient := s.nextClient

/-- The `BSocksClient` of the client `k` is not freed. -/
def ReactorPart.Socks (p : ReactorPart) (k : ℕ) : Prop :=
  ∃ c, p.clients.lookup k = some c ∧ c.socksClosed = false

/-- The objects `fr`, latest first, and above them the TCP clients are attached, and all that is
registered belongs to them. -/
structure ReactorOk (fr : List Obj) (p : ReactorPart) : Prop where
  main : ∀ k, Obj.client k ∉ fr
  held : ∃ ks : List ℕ, held Obj.siblings [] p.objects = some (ks.map Obj.client ++ fr) ∧ ks.Nodup ∧
    ∀ k, k ∈ ks ↔ p.Socks k
  owned : ∀ r ∈ p.regs, r.owner ∈ fr ∨ ∃ k, r.owner = .client k ∧ p.Socks k
  below : ∀ k c, p.clients.lookup k = some c → k < p.nextClient

/-! ### Lists of clients -/

section Lookup

variable (cs : List (ℕ × Client)) (j k : ℕ) (c : Client)

theorem lookup_cons_ite (p : ℕ × Client) :
    (p :: cs).lookup j = if j = p.1 then some p.2 else cs.lookup j := by
  rw [List.lookup_cons]
  by_cases h : j = p.1
  · rw [beq_iff_eq.mpr h, if_pos h]
  · rw [beq_eq_false_iff_ne.mpr h, if_neg h]

theorem lookup_set : (cs.map fun p => if p.1 = k then (k, c) else p).lookup j =
    if j = k then (cs.lookup k).map fun _ => c else cs.lookup j := by
  induction cs with
  | nil => simp
  | cons p cs ih =>
    simp only [List.map_cons, lookup_cons_ite, ih]
    by_cases hp : p.1 = k
    · by_cases hj : j = k <;> simp [hp, hj]
    · by_cases hj : j = k
      · simp [hj, hp, Ne.symm hp]
      · simp [hp, hj]

theorem lookup_filter_ne : (cs.filter fun p => p.1 ≠ k).lookup j = if j = k then none else cs.lookup j := by
  induction cs with
  | nil => simp
  | cons p cs ih =>
    rw [List.filter_cons, lookup_cons_ite]
    by_cases hp : p.1 = k
    · rw [if_neg (by simpa using hp), ih]
      by_cases hj : j = k <;> simp [hp, hj]
    · rw [if_pos (by simpa using hp), lookup_cons_ite, ih]
      by_cases hj : j = k
      · simp [hj, Ne.symm hp]
      · simp [hj]

end Lookup

/-! ### Objects come and go -/

section ReactorOk

variable {fr : List Obj} {p p' : ReactorPart} {o : Obj} {k : ℕ} {c : Client}

theorem ReactorPart.socks_nil (h : p.clients = []) (k : ℕ) : ¬ p.Socks k := by
  rintro ⟨c, hc, -⟩
  rw [h] at hc
  exact absurd hc (by simp)

theorem siblings_client (ks : List ℕ) (k : ℕ) : ∀ x ∈ ks.map Obj.client, x.siblings (.client k) = true := by
  intro x hx
  obtain ⟨j, -, rfl⟩ := List.mem_map.mp hx
  rfl

theorem ReactorOk.held_eq (h : ReactorOk fr p) (hc : p.clients = []) :
    Ledger.held Obj.siblings [] p.objects = some fr := by
  obtain ⟨ks, hks, -, hmem⟩ := h.held
  have hnil : ks = [] := List.eq_nil_iff_forall_not_mem.mpr fun k hk => p.socks_nil hc k ((hmem k).mp hk)
  rwa [hnil] at hks

theorem ReactorOk.of_held (hmain : ∀ k, Obj.client k ∉ fr) (hc : p.clients = [])
    (hheld : Ledger.held Obj.siblings [] p.objects = some fr) (howned : ∀ r ∈ p.regs, r.owner ∈ fr) :
    ReactorOk fr p where
  main := hmain
  held := ⟨[], hheld, List.nodup_nil, fun k => iff_of_false List.not_mem_nil (p.socks_nil hc k)⟩
  owned r hr := .inl (howned r hr)
  below k c hk := by
    rw [hc] at hk
    exact absurd hk (by simp)

theorem ReactorOk.owned_main (h : ReactorOk fr p) (hc : p.clients = []) : ∀ r ∈ p.regs, r.owner ∈ fr := by
  intro r hr
  rcases h.owned r hr with ho | ⟨k, -, hk⟩
  · exact ho
  · exact absurd hk (p.socks_nil hc k)

theorem ReactorOk.attach {kinds : List Kind} (h : ReactorOk fr p) (hc : p.clients = []) (ho : o ∉ fr)
    (hclient : ∀ k, Obj.client k ≠ o)
    (hp : p' = { p with
      objects := p.objects ++ [.opened o], regs := p.regs ++ kinds.map (Registration.mk o) }) :
    ReactorOk (o :: fr) p' := by
  subst hp
  refine .of_held ?_ hc (held_opened (h.held_eq hc) ho) fun r hr => ?_
  · intro k hk
    exact (List.mem_cons.mp hk).elim (hclient k) (h.main k)
  · rcases List.mem_append.mp hr with hr | hr
    · exact List.mem_cons_of_mem _ (h.owned_main hc r hr)
    · obtain ⟨kind, -, rfl⟩ := List.mem_map.mp hr
      exact List.mem_cons_self

theorem ReactorOk.registers (h : ReactorOk fr p) (o : Obj) (kind : Kind) (ho : o ∈ fr)
    (hp : p' = { p with regs := p.regs ++ [⟨o, kind⟩] }) : ReactorOk fr p' := by
  subst hp
  refine ⟨h.main, h.held, fun r hr => ?_, h.below⟩
  rcases List.mem_append.mp hr with hr | hr
  · exact h.owned r hr
  · cases List.mem_singleton.mp hr
    exact .inl ho

theorem ReactorOk.release (h : ReactorOk (o :: fr) p) (hc : p.clients = [])
    (hp : p' = { p with objects := p.objects ++ [.closed o], regs := p.regs.filter fun r => r.owner ≠ o }) :
    ReactorOk fr p' := by
  subst hp
  refine .of_held (fun k hk => h.main k (List.mem_cons_of_mem _ hk)) hc
    (held_closed (h.held_eq hc) remove_cons_self) fun r hr => ?_
  rw [List.mem_filter, decide_eq_true_eq] at hr
  exact (List.mem_cons.mp (h.owned_main hc r hr.1)).resolve_left hr.2

/-! ### A turn of the event loop -/

theorem ReactorOk.same (h : ReactorOk fr p) (hobjects : p'.objects = p.objects)
    (hsocks : ∀ k, p'.Socks k ↔ p.Socks k)
    (hregs : ∀ r ∈ p'.regs, r.owner ∈ fr ∨ ∃ k, r.owner = .client k ∧ p.Socks k)
    (hbelow : ∀ k c, p'.clients.lookup k = some c → k < p'.nextClient) : ReactorOk fr p' where
  main := h.main
  held := by
    obtain ⟨ks, hheld, hnodup, hmem⟩ := h.held
    exact ⟨ks, hobjects ▸ hheld, hnodup, fun k => (hmem k).trans (hsocks k).symm⟩
  owned r hr := (hregs r hr).imp_right fun ⟨k, hk, hs⟩ => ⟨k, hk, (hsocks k).mpr hs⟩
  below := hbelow

theorem ReactorOk.frees (h : ReactorOk fr p) (hk : p.Socks k)
    (hobjects : p'.objects = p.objects ++ [.closed (.client k)])
    (hregs : p'.regs = p.regs.filter fun r => r.owner ≠ .client k)
    (hsocks : ∀ j, p'.Socks j ↔ j ≠ k ∧ p.Socks j)
    (hbelow : ∀ j c, p'.clients.lookup j = some c → j < p'.nextClient) : ReactorOk fr p' where
  main := h.main
  held := by
    obtain ⟨ks, hheld, hnodup, hmem⟩ := h.held
    refine ⟨ks.erase k, ?_, hnodup.erase k, fun j => ?_⟩
    · have hinj : Function.Injective Obj.client := fun _ _ he => Obj.client.inj he
      have hin : Obj.client k ∈ ks.map Obj.client := List.mem_map_of_mem ((hmem k).mpr hk)
      rw [hobjects, List.map_erase hinj]
      exact held_closed hheld (remove_append hin (siblings_client ks k))
    · rw [hnodup.mem_erase_iff, hmem, hsocks]
  owned r hr := by
    rw [hregs, List.mem_filter, decide_eq_true_eq] at hr
    refine (h.owned r hr.1).imp_right fun ⟨j, hj, hs⟩ => ⟨j, hj, (hsocks j).mpr ⟨?_, hs⟩⟩
    rintro rfl
    exact hr.2 hj
  below := hbelow

theorem ReactorOk.accepts (h : ReactorOk fr p) (kinds : List Kind) : ReactorOk fr
    { objects := p.objects ++ [.opened (.client p.nextClient)]
      regs := p.regs ++ kinds.map (Registration.mk (.client p.nextClient))
      clients := p.clients ++ [(p.nextClient, {})]
      nextClient := p.nextClient + 1 } := by
  have hnew : p.clients.lookup p.nextClient = none := by
    by_contra hne
    obtain ⟨c, hc⟩ := Option.ne_none_iff_exists'.mp hne
    exact lt_irrefl _ (h.below _ c hc)
  have hlookup : ∀ j, (p.clients ++ [(p.nextClient, ({} : Client))]).lookup j =
      if j = p.nextClient then some {} else p.clients.lookup j := by
    intro j
    rw [List.lookup_append, lookup_cons_ite, List.lookup_nil]
    by_cases hj : j = p.nextClient
    · rw [if_pos hj, if_pos hj, hj, hnew, Option.none_or]
    · rw [if_neg hj, if_neg hj, Option.or_none]
  refine ⟨h.main, ?_, ?_, ?_⟩
  · obtain ⟨ks, hheld, hnodup, hmem⟩ := h.held
    have hk : p.nextClient ∉ ks := by
      rw [hmem]
      rintro ⟨c, hc, -⟩
      rw [hnew] at hc
      cases hc
    have hobj : Obj.client p.nextClient ∉ ks.map Obj.client ++ fr := by
      rw [List.mem_append, not_or]
      refine ⟨fun hm => ?_, h.main _⟩
      obtain ⟨j, hj, he⟩ := List.mem_map.mp hm
      exact hk (Obj.client.inj he ▸ hj)
    refine ⟨p.nextClient :: ks, held_opened hheld hobj, List.nodup_cons.mpr ⟨hk, hnodup⟩, fun j => ?_⟩
    unfold ReactorPart.Socks
    rw [hlookup, List.mem_cons, hmem]
    by_cases hj : j = p.nextClient
    · simp [hj]
    · simp only [hj, false_or, if_false]
      rfl
  · intro r hr
    rcases List.mem_append.mp hr with hr | hr
    · refine (h.owned r hr).imp_right fun ⟨j, hj, c, hc, hs⟩ => ⟨j, hj, c, ?_, hs⟩
      rw [hlookup, if_neg fun he => (by rw [he, hnew] at hc; cases hc)]
      exact hc
    · obtain ⟨kind, -, rfl⟩ := List.mem_map.mp hr
      exact .inr ⟨p.nextClient, rfl, {}, by rw [hlookup, if_pos rfl], rfl⟩
  · intro j c hj
    rw [hlookup] at hj
    by_cases he : j = p.nextClient
    · rw [he]
      exact Nat.lt_succ_self _
    · rw [if_neg he] at hj
      exact Nat.lt_succ_of_lt (h.below j c hj)

theorem ReactorPart.socks_set {c₀ : Client} (hk : p.clients.lookup k = some c₀)
    (hp : p'.clients = p.clients.map fun q => if q.1 = k then (k, c) else q) (j : ℕ) :
    p'.Socks j ↔ if j = k then c.socksClosed = false else p.Socks j := by
  unfold ReactorPart.Socks
  rw [hp, lookup_set, hk]
  by_cases hj : j = k
  · simp [hj]
  · simp [hj]

theorem ReactorPart.socks_filter (hp : p'.clients = p.clients.filter fun q => q.1 ≠ k) (j : ℕ) :
    p'.Socks j ↔ j ≠ k ∧ p.Socks j := by
  unfold ReactorPart.Socks
  rw [hp, lookup_filter_ne]
  by_cases hj : j = k
  · simp [hj]
  · simp [hj]

variable {s s' : State}

theorem ReactorOk.turn (h : ReactorOk fr s.reactorPart) (hfr : ∀ o, (∀ k, o ≠ .client k) → o ∈ fr)
    (ht : Turn s s') : ReactorOk fr s'.reactorPart := by
  have hbelow_set : ∀ {k c₀} c, s.getClient k = some c₀ →
      ∀ j d, (s.setClient k c).reactorPart.clients.lookup j = some d → j < s.nextClient := by
    intro k c₀ c hk j d hd
    change List.lookup j (s.clients.map _) = some d at hd
    rw [lookup_set] at hd
    by_cases hj : j = k
    · exact hj ▸ h.below k c₀ hk
    · rw [if_neg hj] at hd
      exact h.below j d hd
  have hbelow_filter : ∀ k j d, (s.clientDealloc k).reactorPart.clients.lookup j = some d → j <
      s.nextClient := by
    intro k j d hd
    change List.lookup j (s.clients.filter _) = some d at hd
    rw [lookup_filter_ne] at hd
    by_cases hj : j = k
    · rw [if_pos hj] at hd
      cases hd
    · rw [if_neg hj] at hd
      exact h.below j d hd
  cases ht with
  | flags f => exact h
  | executes f =>
    refine h.same rfl (fun _ => Iff.rfl) (fun r hr => ?_) h.below
    exact h.owned r (List.mem_filter.mp hr).1
  | rearms o kinds ho =>
    refine h.same rfl (fun _ => Iff.rfl) (fun r hr => ?_) h.below
    rcases List.mem_append.mp hr with hr | hr
    · exact h.owned r (List.mem_filter.mp hr).1
    · obtain ⟨kind, -, rfl⟩ := List.mem_map.mp hr
      cases o with
      | client k =>
        obtain ⟨c, hc, hs⟩ := (Option.any_eq_true _ _).mp ho
        exact .inr ⟨k, rfl, c, hc, by simpa using hs⟩
      | _ => exact .inl (hfr _ fun k hk => nomatch hk)
  | accepts kinds => exact h.accepts kinds
  | updates k c c' hk hs =>
    refine h.same rfl (fun j => ?_) h.owned (hbelow_set c' hk)
    rw [ReactorPart.socks_set (p := s.reactorPart) hk rfl]
    by_cases hj : j = k
    · rw [if_pos hj, hj, hs]
      exact ⟨fun hc => ⟨c, hk, hc⟩, fun ⟨d, hd, hc⟩ => Option.some.inj (hk.symm.trans hd) ▸ hc⟩
    · rw [if_neg hj]
  | freesSocks k c c' hk ho hs =>
    refine h.frees ⟨c, hk, ho⟩ rfl rfl (fun j => ?_) (hbelow_set c' hk)
    rw [ReactorPart.socks_set (p := s.reactorPart) hk rfl]
    by_cases hj : j = k
    · simp [hj, hs]
    · simp [hj]
  | ends k c hk hs =>
    exact h.frees ⟨c, hk, hs⟩ rfl rfl (ReactorPart.socks_filter (p := s.reactorPart) rfl) (hbelow_filter k)
  | deallocs k c hk hs =>
    refine h.same rfl (fun j => ?_) h.owned (hbelow_filter k)
    rw [ReactorPart.socks_filter (p := s.reactorPart) rfl]
    refine ⟨fun hj => hj.2, fun hj => ⟨?_, hj⟩⟩
    rintro rfl
    obtain ⟨d, hd, hc⟩ := hj
    cases hk.symm.trans hd
    rw [hs] at hc
    cases hc

end ReactorOk

/-! ### Along a call -/

/-- What is attached to the reactor when the statement runs, latest first, without the TCP clients. -/
def frame : Pc → List Obj
  | .dup | .tapInit | .closeDup | .failStopfd | .removeStopFd => [.stopFd]
  | .readInterface | .failDevice | .freeTap => [.device, .stopFd]
  | .readBuffer | .failTap | .freeReadInterface => [.readInterface, .device, .stopFd]
  | .udpClient | .freeReadBuffer => [.readBuffer, .readInterface, .device, .stopFd]
  | .initJob | .freeUdpClient => [.udpClient, .readBuffer, .readInterface, .device, .stopFd]
  | .alloc | .freeInitJob => [.initJob, .udpClient, .readBuffer, .readInterface, .device, .stopFd]
  | .tcpTimer | .freeWriteBuf =>
    [.writeBuf, .initJob, .udpClient, .readBuffer, .readInterface, .device, .stopFd]
  | .loop | .murder | .removeTimer =>
    [.tcpTimer, .writeBuf, .initJob, .udpClient, .readBuffer, .readInterface, .device, .stopFd]
  | _ => []

/-- The reactor is initialised. -/
def reactorUp : Pc → Bool
  | .idle | .globalInit | .processArguments | .reactorInit | .succeed | .failLog => false
  | _ => true

/-- TCP clients are served. -/
def serving : Pc → Bool
  | .loop | .murder => true
  | _ => false

/-- On the way from `fail_udpmode` to `BReactor_Free`. -/
def unwinding : Pc → Bool
  | .failUdpmode | .failReadBuffer | .failTap | .failDevice | .failStopfd | .failPipe | .failPipeWrite | .failClear
  | .failReactor => true
  | _ => false

/-- `BAlloc` has not failed. -/
structure Sound (s : State) : Prop where
  alloc : s.allocFailed = false
  ok : reactorUp s.pc = true → ReactorOk (frame s.pc) s.reactorPart
  path : s.pc ≠ .failUdpmode ∧ s.pc ≠ .failReadBuffer
  job : s.pc = .alloc → ⟨.initJob, .job⟩ ∈ s.regs

/-- `BAlloc` has failed: until `BReactor_Free`, `lwip_init_job` remains set. -/
structure Leaky (s : State) : Prop where
  alloc : s.allocFailed = true
  job : (unwinding s.pc = true ∧ ⟨.initJob, .job⟩ ∈ s.regs) ∨ s.pc = .failLog ∨ s.pc = .idle

/-- What holds along every call. -/
structure TearInv (s : State) : Prop where
  clients : serving s.pc = false → s.clients = []
  course : Sound s ∨ Leaky s

theorem tearInv_init : TearInv init where
  clients _ := rfl
  course := .inl ⟨rfl, (fun h => nomatch h), ⟨by simp [init], by simp [init]⟩, fun h => nomatch h⟩

variable {s s' : State} {ndebug ok : Bool}

theorem Turn.pc (h : Turn s s') : s'.pc = s.pc := by
  cases h <;> rfl

theorem Turn.allocFailed (h : Turn s s') : s'.allocFailed = s.allocFailed := by
  cases h <;> rfl

/-- Nothing happens to the reactor. -/
theorem Sound.moves (h : Sound s) (hp : s'.reactorPart = s.reactorPart) (ha : s'.allocFailed = s.allocFailed)
    (hframe : frame s'.pc = frame s.pc) (hup : reactorUp s'.pc = true → reactorUp s.pc = true)
    (hpath : s'.pc ≠ .failUdpmode ∧ s'.pc ≠ .failReadBuffer ∧ s'.pc ≠ .alloc) : Sound s' where
  alloc := ha.trans h.alloc
  ok hu := by
    rw [hp, hframe]
    exact h.ok (hup hu)
  path := ⟨hpath.1, hpath.2.1⟩
  job hpc := absurd hpc hpath.2.2

/-- Where it stands, a call that is sound goes on to a statement with the frame `fr`. -/
theorem Sound.next {fr : List Obj} (h : Sound s) (hok : ReactorOk fr s'.reactorPart)
    (ha : s'.allocFailed = s.allocFailed)
    (hframe : frame s'.pc = fr) (hpath : s'.pc ≠ .failUdpmode ∧ s'.pc ≠ .failReadBuffer ∧ s'.pc ≠ .alloc) :
    Sound s' where
  alloc := ha.trans h.alloc
  ok _ := hframe ▸ hok
  path := ⟨hpath.1, hpath.2.1⟩
  job hpc := absurd hpc hpath.2.2

theorem reactorPart_btapFree : s.btapFree.reactorPart = (s.release .device).reactorPart ∧
    s.btapFree.allocFailed = s.allocFailed := by
  unfold State.btapFree
  dsimp only
  split
  · split <;> exact ⟨rfl, rfl⟩
  · exact ⟨rfl, rfl⟩

variable (s ndebug) in
theorem reactorPart_reactorFree (pc : Pc) : (s.reactorFree ndebug pc).reactorPart = s.reactorPart ∧
    (s.reactorFree ndebug pc).allocFailed = s.allocFailed ∧
    ((s.reactorFree ndebug pc).pc = s.pc ∨ (s.reactorFree ndebug pc).pc = pc) := by
  unfold State.reactorFree
  split
  · exact ⟨rfl, rfl, .inl rfl⟩
  · cases s.efd <;> exact ⟨rfl, rfl, .inr rfl⟩

theorem reactorPart_closeFd (d : Option Descriptor) : (s.closeFd d).reactorPart = s.reactorPart ∧
    (s.closeFd d).allocFailed = s.allocFailed := by
  cases d <;> exact ⟨rfl, rfl⟩

/-! ### The statements of a call, one by one -/

theorem Sound.reactorInit (h : Sound s) (hpc : s.pc = .reactorInit) (hc : s.clients = [])
    (hs : exec ndebug s ok = some s') : Sound s' := by
  simp only [exec, hpc] at hs
  cases ok with
  | false =>
    cases hs
    exact h.moves rfl rfl (by rw [hpc]; rfl) (by simp [reactorUp, State.goto]) (by simp [State.goto])
  | true =>
    cases hs
    refine h.next (.of_held (by simp) hc rfl fun r hr => nomatch hr) rfl rfl (by simp)

theorem Sound.addStopFd (h : Sound s) (hpc : s.pc = .addStopFd) (hc : s.clients = [])
    (hs : exec ndebug s ok = some s') : Sound s' := by
  simp only [exec, hpc] at hs
  have hok := h.ok
  rw [hpc] at hok
  cases ok with
  | false =>
    cases hs
    exact h.moves rfl rfl (by rw [hpc]; rfl) (by simp [hpc, reactorUp]) (by simp [State.goto])
  | true =>
    cases hs
    exact h.next ((hok rfl).attach hc (by simp [frame]) (by simp) rfl) rfl rfl (by simp [State.goto])

theorem Sound.tapInit (h : Sound s) (hpc : s.pc = .tapInit) (hc : s.clients = [])
    (hs : exec ndebug s ok = some s') : Sound s' := by
  simp only [exec, hpc] at hs
  have hok := h.ok
  rw [hpc] at hok
  cases ok with
  | false =>
    cases hs
    exact h.moves rfl rfl (by rw [hpc]; rfl) (by simp [hpc, reactorUp]) (by simp [State.goto])
  | true =>
    obtain ⟨fd, -, rfl⟩ := Option.map_eq_some_iff.mp hs
    exact h.next ((hok rfl).attach hc (by simp [frame]) (by simp) rfl) rfl rfl (by simp [State.goto])

/-- The buffer registers a job of the device besides its own. -/
theorem Sound.readBuffer (h : Sound s) (hpc : s.pc = .readBuffer) (hc : s.clients = [])
    (hs : exec ndebug s ok = some s') : Sound s' := by
  simp only [exec, hpc] at hs
  have hok := h.ok
  rw [hpc] at hok
  cases ok with
  | false =>
    cases hs
    exact h.moves rfl rfl (by rw [hpc]; rfl) (by simp [hpc, reactorUp]) (by simp [State.goto])
  | true =>
    cases hs
    have hreg := (hok rfl).registers .device .job (by simp [frame]) rfl
    exact h.next (hreg.attach hc (by simp [frame]) (by simp) rfl) rfl rfl (by simp [State.goto])

theorem Sound.initJob (h : Sound s) (hpc : s.pc = .initJob) (hc : s.clients = [])
    (hs : exec ndebug s ok = some s') : Sound s' := by
  simp only [exec, hpc] at hs
  have hok := h.ok
  rw [hpc] at hok
  cases hs
  refine ⟨h.alloc, fun _ => ?_, by simp [State.goto], fun _ => ?_⟩
  · exact (hok rfl).attach hc (by simp [frame]) (by simp) rfl
  · simp [State.goto, State.attach]

theorem Sound.balloc (h : Sound s) (hpc : s.pc = .alloc) (hc : s.clients = [])
    (hs : exec ndebug s ok = some s') : Sound s' ∨ Leaky s' := by
  simp only [exec, hpc] at hs
  have hok := h.ok
  rw [hpc] at hok
  cases ok with
  | false =>
    cases hs
    exact .inr ⟨rfl, .inl ⟨rfl, h.job hpc⟩⟩
  | true =>
    cases hs
    left
    exact h.next ((hok rfl).attach hc (by simp [frame]) (by simp) rfl) rfl rfl (by simp [State.goto])

theorem Sound.tcpTimer (h : Sound s) (hpc : s.pc = .tcpTimer) (hc : s.clients = [])
    (hs : exec ndebug s ok = some s') : Sound s' := by
  simp only [exec, hpc] at hs
  have hok := h.ok
  rw [hpc] at hok
  cases hs
  have hatt : ReactorOk (frame .loop) (s.attach .tcpTimer [.timer]).reactorPart :=
    (hok rfl).attach hc (by simp [frame]) (by simp) rfl
  refine h.next ?_ rfl rfl (by simp)
  have hp : (s.attach .tcpTimer [.timer]).reactorPart =
      { (s.attach .tcpTimer [.timer]).reactorPart with clients := [] } := by
    simp [State.reactorPart, State.attach, hc]
  rw [hp] at hatt
  exact hatt

theorem Sound.murder (h : Sound s) (hpc : s.pc = .murder) (hs : exec ndebug s ok = some s') : Sound s' := by
  simp only [exec, hpc] at hs
  have hok := h.ok
  rw [hpc] at hok
  split at hs
  · next hcs =>
    cases hs
    have ht := turn_clientMurder hcs
    have hpc' := ht.pc.trans hpc
    refine h.next ((hok rfl).turn ?_ ht) ht.allocFailed (by rw [hpc']) (by simp [hpc'])
    intro o ho
    cases o with
    | client k => exact absurd rfl (ho k)
    | _ => simp [frame]
  · cases hs
    exact h.moves rfl rfl (by rw [hpc]; rfl) (by simp [hpc, reactorUp]) (by simp)

theorem sound_exec (h : Sound s) (hclients : serving s.pc = false → s.clients = [])
    (hs : exec ndebug s ok = some s') : Sound s' ∨ Leaky s' := by
  cases hpc : s.pc
  case reactorInit => exact .inl (h.reactorInit hpc (hclients (by rw [hpc]; rfl)) hs)
  case addStopFd => exact .inl (h.addStopFd hpc (hclients (by rw [hpc]; rfl)) hs)
  case tapInit => exact .inl (h.tapInit hpc (hclients (by rw [hpc]; rfl)) hs)
  case readBuffer => exact .inl (h.readBuffer hpc (hclients (by rw [hpc]; rfl)) hs)
  case initJob => exact .inl (h.initJob hpc (hclients (by rw [hpc]; rfl)) hs)
  case alloc => exact h.balloc hpc (hclients (by rw [hpc]; rfl)) hs
  case tcpTimer => exact .inl (h.tcpTimer hpc (hclients (by rw [hpc]; rfl)) hs)
  case murder => exact .inl (h.murder hpc hs)
  case failUdpmode => exact absurd hpc h.path.1
  case failReadBuffer => exact absurd hpc h.path.2
  all_goals
    have hok := h.ok
    simp only [exec, hpc] at hs
    rw [hpc] at hok hclients
  case idle => cases hs
  case globalInit | processArguments | fcntl =>
    cases hs
    left
    cases ok <;> exact h.moves rfl rfl (by rw [hpc]; rfl) (by simp [hpc, reactorUp, State.goto])
      (by simp [State.goto])
  case pipe | dup =>
    left
    cases ok <;> cases hs <;>
      exact h.moves rfl rfl (by rw [hpc]; rfl) (by simp [hpc, reactorUp]) (by simp [State.goto])
  case readInterface | udpClient =>
    cases hs
    left
    exact h.next ((hok rfl).attach (hclients rfl) (by simp [frame]) (by simp) rfl) rfl rfl
      (by simp [State.goto])
  case loop =>
    split at hs
    · cases hs
      left
      exact h.moves rfl rfl (by rw [hpc]; rfl) (by simp [hpc, reactorUp]) (by simp [State.goto])
    · cases hs
  case removeTimer | freeWriteBuf | freeInitJob | freeUdpClient | freeReadBuffer | freeReadInterface | removeStopFd
      | failTap | failStopfd =>
    cases hs
    left
    exact h.next ((hok rfl).release (hclients rfl) rfl) rfl rfl (by simp [State.goto])
  case freeTap | failDevice =>
    cases hs
    left
    obtain ⟨hp, ha⟩ := reactorPart_btapFree (s := s)
    exact h.next ((hok rfl).release (hclients rfl) hp) ha rfl (by simp [State.goto])
  case closeDup | closeStopRead | closeStopWrite | failPipe | failPipeWrite =>
    cases hs
    left
    obtain ⟨hp, ha⟩ := reactorPart_closeFd (s := s) _
    exact h.moves hp ha (by rw [hpc]; rfl) (by simp [hpc, reactorUp]) (by simp [State.goto])
  case clearStopPipe | failClear | succeed | failLog =>
    cases hs
    left
    exact h.moves rfl rfl (by rw [hpc]; rfl) (by simp [hpc, reactorUp]) (by simp)
  case freeReactor | failReactor =>
    cases hs
    left
    obtain ⟨hp, ha, hpc' | hpc'⟩ := reactorPart_reactorFree s ndebug _
    · exact h.moves hp ha (by rw [hpc']) (by rw [hpc']; exact id) (by simp [hpc', hpc])
    · exact h.moves hp ha (by rw [hpc', hpc]; rfl) (by simp [hpc', reactorUp]) (by simp [hpc'])

/-- Freeing another object leaves the job in the reactor. -/
theorem mem_regs_release {o : Obj} (ho : o ≠ .initJob) (h : ⟨.initJob, .job⟩ ∈ s.regs) :
    ⟨.initJob, .job⟩ ∈ (s.release o).regs :=
  List.mem_filter.mpr ⟨h, decide_eq_true (Ne.symm ho)⟩

theorem leaky_exec (h : Leaky s) (hs : exec ndebug s ok = some s') : Leaky s' := by
  rcases h.job with ⟨hun, hjob⟩ | hpc | hpc
  · cases hpc : s.pc <;> rw [hpc] at hun <;> simp only [unwinding, reduceCtorEq] at hun <;>
      simp only [exec, hpc] at hs
    case failUdpmode | failReadBuffer | failTap | failStopfd =>
      cases hs
      exact ⟨h.alloc, .inl ⟨rfl, mem_regs_release (by simp) hjob⟩⟩
    case failDevice =>
      cases hs
      obtain ⟨hp, ha⟩ := reactorPart_btapFree (s := s)
      refine ⟨ha.trans h.alloc, .inl ⟨rfl, ?_⟩⟩
      change _ ∈ s.btapFree.reactorPart.regs
      rw [hp]
      exact mem_regs_release (by simp) hjob
    case failPipe | failPipeWrite =>
      cases hs
      obtain ⟨hp, ha⟩ := reactorPart_closeFd (s := s) _
      refine ⟨ha.trans h.alloc, .inl ⟨rfl, ?_⟩⟩
      change _ ∈ (s.closeFd _).reactorPart.regs
      rw [hp]
      exact hjob
    case failClear =>
      cases hs
      exact ⟨h.alloc, .inl ⟨rfl, hjob⟩⟩
    case failReactor =>
      cases hs
      obtain ⟨hp, ha, hpc' | hpc'⟩ := reactorPart_reactorFree s ndebug .failLog
      · refine ⟨ha.trans h.alloc, .inl ⟨by rw [hpc', hpc]; rfl, ?_⟩⟩
        change _ ∈ (s.reactorFree ndebug _).reactorPart.regs
        rw [hp]
        exact hjob
      · exact ⟨ha.trans h.alloc, .inr (.inl hpc')⟩
  · simp only [exec, hpc] at hs
    cases hs
    exact ⟨h.alloc, .inr (.inr rfl)⟩
  · simp only [exec, hpc] at hs
    cases hs

theorem clients_exec (hserving : serving s.pc = false) (hc : s.clients = [])
    (hs : exec ndebug s ok = some s') :
    s'.clients = [] := by
  have hbtap : s.btapFree.clients = s.clients := congrArg ReactorPart.clients reactorPart_btapFree.1
  have hclose : ∀ d, (s.closeFd d).clients = s.clients := fun d =>
    congrArg ReactorPart.clients (reactorPart_closeFd d).1
  have hfree : ∀ pc, (s.reactorFree ndebug pc).clients = s.clients := fun pc =>
    congrArg ReactorPart.clients (reactorPart_reactorFree s ndebug pc).1
  cases hpc : s.pc <;> rw [hpc] at hserving <;> simp only [serving, reduceCtorEq] at hserving <;>
    simp only [exec, hpc] at hs
  case idle => cases hs
  case tapInit =>
    cases ok with
    | false =>
      cases hs
      exact hc
    | true =>
      obtain ⟨fd, -, rfl⟩ := Option.map_eq_some_iff.mp hs
      exact hc
  case freeTap | failDevice =>
    cases hs
    exact hbtap.trans hc
  case closeDup | closeStopRead | closeStopWrite | failPipe | failPipeWrite =>
    cases hs
    exact (hclose _).trans hc
  case freeReactor | failReactor =>
    cases hs
    exact (hfree _).trans hc
  case tcpTimer =>
    cases hs
    rfl
  all_goals
    cases ok <;> cases hs <;> exact hc

/-- What one step preserves. -/
theorem tearInv_step {l : Label} (h : TearInv s) (hs : step ndebug s l = some s') : TearInv s' := by
  have hsame : s'.reactorPart = s.reactorPart → s'.pc = s.pc → s'.allocFailed = s.allocFailed →
      TearInv s' := by
    intro hp hpc ha
    refine ⟨fun hserv => (congrArg ReactorPart.clients hp).trans (h.clients (hpc ▸ hserv)), ?_⟩
    have hregs : s'.regs = s.regs := congrArg ReactorPart.regs hp
    rcases h.course with hg | hb
    · refine .inl ⟨ha.trans hg.alloc, fun hup => ?_, hpc ▸ hg.path, fun hp' => ?_⟩
      · rw [hp, hpc]
        exact hg.ok (hpc ▸ hup)
      · rw [hregs]
        exact hg.job (hpc.symm.trans hp')
    · exact .inr ⟨ha.trans hb.alloc, by rw [hpc, hregs]; exact hb.job⟩
  unfold step at hs
  split at hs
  · cases hs
  · cases l with
    | run cfg =>
      dsimp only at hs
      split at hs
      · cases hs
      · next hpc =>
        rw [not_not] at hpc
        split at hs
        · cases hs
          refine ⟨fun _ => h.clients (by rw [hpc]; rfl), .inl ⟨rfl, ?_, by simp, ?_⟩⟩
          · exact fun hup => nomatch hup
          · exact fun hp => nomatch hp
        · cases hs
          exact hsame rfl rfl rfl
    | next ok =>
      refine ⟨fun hserv => ?_, ?_⟩
      · by_cases hserving : serving s.pc = true
        · have hs : exec ndebug s ok = some s' := hs
          cases hpc : s.pc <;> rw [hpc] at hserving <;> simp only [serving, reduceCtorEq] at hserving <;>
            simp only [exec, hpc] at hs
          case loop =>
            split at hs
            · cases hs
              cases hserv
            · cases hs
          case murder =>
            split at hs
            · next hcs =>
              cases hs
              rw [(turn_clientMurder hcs).pc, hpc] at hserv
              cases hserv
            · next hcs =>
              cases hs
              exact hcs
        · exact clients_exec (Bool.not_eq_true _ ▸ hserving) (h.clients (Bool.not_eq_true _ ▸ hserving)) hs
      · rcases h.course with hg | hb
        · exact sound_exec hg h.clients hs
        · exact .inr (leaky_exec hb hs)
    | event e =>
      dsimp only at hs
      split at hs
      · next hloop =>
        have ht := handle_turn hs
        have hpc := ht.pc.trans hloop.1
        refine ⟨fun hserv => (by rw [hpc] at hserv; cases hserv), ?_⟩
        rcases h.course with hg | hb
        · have hok := hg.ok (by rw [hloop.1]; rfl)
          refine .inl (hg.next (hok.turn ?_ ht) ht.allocFailed (by rw [ht.pc]) (by simp [hpc]))
          intro o ho
          rw [hloop.1]
          cases o with
          | client k => exact absurd rfl (ho k)
          | _ => simp [frame]
        · rcases hb.job with ⟨hun, -⟩ | hpc' | hpc'
          · rw [hloop.1] at hun
            cases hun
          · exact absurd (hpc'.symm.trans hloop.1) (by simp)
          · exact absurd (hpc'.symm.trans hloop.1) (by simp)
      · cases hs
    | stopCall =>
      dsimp only at hs
      split at hs <;> cases hs <;> exact hsame rfl rfl rfl
    | stopWrite =>
      dsimp only at hs
      split at hs
      · cases hs
      · split at hs <;> cases hs <;> exact hsame rfl rfl rfl

theorem tearInv (h : Reachable (step ndebug) init anyStep s) : TearInv s :=
  h.invariant tearInv_init fun _ _ _ _ hi _ hs => tearInv_step hi hs

/-- What `BReactor_Free` needs: since `BReactor_Init` everything was released once, in the reverse order
of its creation, and nothing else; no job, timer or descriptor is left in the reactor. -/
structure TornDown (s : State) : Prop where
  nested : Nested Obj.siblings s.objects
  once : (closes s.objects).Perm (opens s.objects)
  empty : s.regs = []

/-- **The teardown is complete exactly when `BAlloc` has not failed.** In any sequence of calls, with
any outcomes and any run of the event loop: wherever a call has come to `BReactor_Free`. -/
theorem tornDown_iff (h : Reachable (step ndebug) init anyStep s)
    (hpc : s.pc = .freeReactor ∨ s.pc = .failReactor) :
    TornDown s ↔ s.allocFailed = false := by
  obtain ⟨hclients, hcourse⟩ := tearInv h
  have hframe : frame s.pc = [] := by rcases hpc with hpc | hpc <;> rw [hpc] <;> rfl
  have hnone : s.clients = [] := hclients (by rcases hpc with hpc | hpc <;> rw [hpc] <;> rfl)
  have hup : reactorUp s.pc = true := by rcases hpc with hpc | hpc <;> rw [hpc] <;> rfl
  rcases hcourse with hg | hb
  · refine iff_of_true ?_ hg.alloc
    have hok := hg.ok hup
    rw [hframe] at hok
    have hnested : Nested Obj.siblings s.objects := hok.held_eq hnone
    refine ⟨hnested, hnested.perm, List.eq_nil_iff_forall_not_mem.mpr fun r hr => ?_⟩
    exact absurd (hok.owned_main hnone r hr) List.not_mem_nil
  · refine iff_of_false (fun ht => ?_) (by rw [hb.alloc]; simp)
    rcases hb.job with ⟨-, hjob⟩ | hp | hp
    · rw [ht.empty] at hjob
      exact absurd hjob List.not_mem_nil
    · rcases hpc with hpc | hpc <;> exact absurd (hp.symm.trans hpc) (by simp)
    · rcases hpc with hpc | hpc <;> exact absurd (hp.symm.trans hpc) (by simp)

/-- Two TCP clients are open when the device fails. -/
def quitWithClients : List Label :=
  .run (some bridgeConfig) :: List.replicate 14 (.next true) ++
    [.event (.initJob {}), .event (.accept (some [.pending, .fileDescriptor])),
      .event (.accept (some [.pending, .job])), .event .deviceError] ++
    List.replicate 15 (.next true)

theorem tornDown_iff_quitWithClients :
    ∃ s, Reachable (step false) init anyStep s ∧ s.pc = .freeReactor ∧ s.nextClient = 2 ∧ TornDown s := by
  obtain ⟨s, hs, hf⟩ := reachable_of_run (step false) init
      (c := fun _ _ => true) anyStep_of_true quitWithClients
    (fun s => (s.pc, s.nextClient, s.allocFailed)) (b := (.freeReactor, 2, false)) (by decide +kernel)
  simp only [Prod.mk.injEq] at hf
  exact ⟨s, hs, hf.1, hf.2.1, (tornDown_iff hs (.inl hf.1)).mpr hf.2.2⟩

/-- All calls succeed but `BAlloc`. -/
def allocFails : List Label :=
  .run (some bridgeConfig) :: List.replicate 12 (.next true) ++ List.replicate 9 (.next false)

theorem job_not_freed : ¬ ∀ (ndebug : Bool) (s : State), Reachable (step ndebug) init anyStep s →
    s.pc = .freeReactor ∨ s.pc = .failReactor → TornDown s := by
  intro h
  obtain ⟨s, hs, hf⟩ := reachable_of_run (step false) init (c := fun _ _ => true) anyStep_of_true allocFails
    (fun s => (s.pc, s.regs)) (b := (.failReactor, [⟨.initJob, .pending⟩, ⟨.initJob, .job⟩]))
    (by decide +kernel)
  simp only [Prod.mk.injEq] at hf
  have hempty := (h false s hs (.inr hf.1)).empty
  rw [hf.2] at hempty
  cases hempty

end BypassVpn.Tun2socks
