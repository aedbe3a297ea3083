import BypassVpn.Lib.Transition
import BypassVpn.Packet.Doh

/-!
# The cache of `DohResolver`

`resolve` runs on the packet threads and on the monitor thread. A call tests the cache when it begins
and stores what the providers gave when it ends; other calls may begin and end in between.

* `Call`, `State`, `step`: the calls over one cache; `resolve_alone`, `resolve_reachable`: a call that
  nothing interrupts is `resolve`.
* `Answers`: a lookup answered with status 200 and a body that is parsed. `Chosen`: the provider that a
  call takes its addresses from. `Unmixed`: that provider answers both lookups with status 200.
* `result_tryProviders`, `answered_iff`: what a call stores, and when both lookups answered it.
* **`cache_not_poisoned`**: over runs of unmixed calls, a cached list is fresh and was answered.
-/

namespace BypassVpn.DohCache

open Transition

/-! ### Calls over one cache -/

/-- A call of `resolve`: its host, and what it reads from outside. -/
structure Call where
  host : String
  net : Net

/-- The addresses that the providers give; empty where none gives any. -/
def Call.fetched (c : Call) : List InetAddress :=
  match (tryProviders c.net c.host PROVIDERS).result with
  | .ok all => all
  | .error _ => []

/-- The cache, and the calls over it. -/
structure State where
  cache : Cache
  /-- The calls that ask the providers. -/
  asking : List Call
  /-- The calls that have stored an entry, the last one first. -/
  stored : List Call

/-- Before the first call. -/
def idle : State := ⟨fun _ => none, [], []⟩

/-- What a call does in one step. -/
inductive Move where
  /-- A call up to its cache test. -/
  | begins (c : Call)
  /-- The rest of a call that missed. -/
  | ends (i : ℕ)

/-- The cache test: a hit ends the call. -/
def begin (s : State) (c : Call) : State :=
  if isLiteralIp c.host then s
  else match cached c.net s.cache c.host with
    | some _ => s
    | none => { s with asking := s.asking ++ [c] }

/-- The call has its addresses, and stores them if there are any. -/
def finish (s : State) (i : ℕ) (c : Call) : State :=
  if c.fetched = [] then { s with asking := s.asking.eraseIdx i }
  else
    { cache := Function.update s.cache c.host (some ⟨c.fetched, c.net.storedAt + CACHE_TTL_MS⟩)
      asking := s.asking.eraseIdx i
      stored := c :: s.stored }

/-- One step of a call. -/
def step (s : State) : Move → Option State
  | .begins c => some (begin s c)
  | .ends i => (s.asking[i]?).map (finish s i)

/-! ### What a call stores -/

/-- Status 200, and a body that is parsed to `l`. -/
def Answers (net : Net) (reply : Reply) (l : List InetAddress) : Prop :=
  ∃ body, reply = .responds 200 body ∧ (parseDnsJson net body).result = .ok l

/-- The provider answers both lookups, and `l` is the two answers. -/
def Call.Answered (c : Call) (provider : String) (l : List InetAddress) : Prop :=
  ∃ v4 v6, Answers c.net (c.net.reply provider c.host .A) v4 ∧
    Answers c.net (c.net.reply provider c.host .AAAA) v6 ∧ l = v4 ++ v6

/-- The provider is the first one of the list that settles the query. -/
def Chosen (net : Net) (host : String) : List String → String → Prop
  | [], _ => False
  | p :: rest, provider =>
    (Settles net host p ∧ provider = p) ∨ (¬ Settles net host p ∧ Chosen net host rest provider)

/-- The status of a reply. -/
def status : Reply → Option ℤ
  | .fails => none
  | .responds code _ => some code

/-- The provider that the addresses come from replies to both lookups with status 200. -/
def Call.Unmixed (c : Call) : Prop :=
  ∀ provider, Chosen c.net c.host PROVIDERS provider →
    status (c.net.reply provider c.host .A) = some 200 ∧
    status (c.net.reply provider c.host .AAAA) = some 200

/-- The addresses in the two replies of a provider. -/
def replied (net : Net) (host provider : String) : List InetAddress :=
  ((net.reply provider host .A).names ++ (net.reply provider host .AAAA).names).flatMap (found net)

theorem answers_iff (net : Net) (reply : Reply) (l : List InetAddress) :
    Answers net reply l ↔
      status reply = some 200 ∧ reply.readable = true ∧ l = reply.names.flatMap (found net) := by
  cases reply with
  | fails =>
    refine iff_of_false ?_ fun h => by cases h.1
    rintro ⟨body, hb, -⟩
    cases hb
  | responds code body =>
    constructor
    · rintro ⟨body', hb, hr⟩
      cases hb
      have hh : handleReply net (.responds 200 body) = parseDnsJson net body := rfl
      rcases result_handleReply net (.responds 200 body) with ⟨hread, h⟩ | ⟨-, e, h⟩
      · rw [hh, hr, Except.ok.injEq] at h
        exact ⟨rfl, hread, h⟩
      · rw [hh, hr] at h
        cases h
    · rintro ⟨hs, hread, rfl⟩
      obtain rfl : code = 200 := Option.some.inj hs
      have hh : handleReply net (.responds 200 body) = parseDnsJson net body := rfl
      rcases result_handleReply net (.responds 200 body) with ⟨-, h⟩ | ⟨hno, -⟩
      · exact ⟨body, rfl, by rw [← hh, h]⟩
      · rw [hread] at hno
        cases hno

theorem Chosen.settles {net : Net} {host : String} {providers : List String} {p : String}
    (h : Chosen net host providers p) : Settles net host p := by
  induction providers with
  | nil => exact absurd h id
  | cons q rest ih =>
    rcases h with ⟨hs, rfl⟩ | ⟨-, h⟩
    · exact hs
    · exact ih h

theorem Chosen.mem {net : Net} {host : String} {providers : List String} {p : String}
    (h : Chosen net host providers p) : p ∈ providers := by
  induction providers with
  | nil => exact absurd h id
  | cons q rest ih =>
    rcases h with ⟨-, rfl⟩ | ⟨-, h⟩
    · exact List.mem_cons_self
    · exact List.mem_cons_of_mem _ (ih h)

theorem Chosen.unique {net : Net} {host : String} {providers : List String} {p q : String}
    (hp : Chosen net host providers p) (hq : Chosen net host providers q) : p = q := by
  induction providers with
  | nil => exact absurd hp id
  | cons r rest ih =>
    rcases hp with ⟨hs, rfl⟩ | ⟨hs, hp⟩
    · exact (hq.resolve_right fun h => h.1 hs).2.symm
    · exact ih hp (hq.resolve_left fun h => hs h.1).2

/-- The loop over the providers takes the replies of the first one that settles the query. -/
theorem result_tryProviders (net : Net) (host : String) (providers : List String) :
    (∃ provider, Chosen net host providers provider ∧
      (tryProviders net host providers).result = .ok (replied net host provider)) ∨
    (tryProviders net host providers).result = .ok [] := by
  induction providers with
  | nil => exact .inr rfl
  | cons provider rest ih =>
    obtain ⟨all, hall, hempty⟩ := @result_provider net host provider
    rw [tryProviders, Lookup.result_bind, hall]
    simp only [Except.bind]
    by_cases hs : Settles net host provider
    · rw [if_neg fun h => hempty.mp h hs]
      refine .inl ⟨provider, .inl ⟨hs, rfl⟩, ?_⟩
      rcases @result_queryBoth net host provider with ⟨-, -, he⟩ | ⟨hno, -⟩
      · rw [Lookup.result_catching, he] at hall
        exact hall.symm
      · exact absurd hs hno
    · rw [if_pos (hempty.mpr hs)]
      apply ih.imp_left
      rintro ⟨p, hp, hr⟩
      exact ⟨p, .inr ⟨hs, hp⟩, hr⟩

theorem Call.result_fetched (c : Call) :
    (tryProviders c.net c.host PROVIDERS).result = .ok c.fetched := by
  unfold Call.fetched
  rcases result_tryProviders c.net c.host PROVIDERS with ⟨provider, -, hr⟩ | hr <;> rw [hr]

theorem Call.fetched_eq {c : Call} (hne : c.fetched ≠ []) :
    ∃ provider, Chosen c.net c.host PROVIDERS provider ∧ c.fetched = replied c.net c.host provider := by
  unfold Call.fetched at hne ⊢
  rcases result_tryProviders c.net c.host PROVIDERS with ⟨provider, hch, hr⟩ | hr
  · rw [hr]
    exact ⟨provider, hch, rfl⟩
  · rw [hr] at hne
    exact absurd rfl hne

/-- **When both lookups answered what a call stores.** -/
theorem answered_iff {c : Call} (hne : c.fetched ≠ []) :
    (∃ provider, Chosen c.net c.host PROVIDERS provider ∧ c.Answered provider c.fetched) ↔ c.Unmixed := by
  constructor
  · rintro ⟨provider, hch, v4, v6, h4, h6, -⟩ q hq
    rw [← hch.unique hq]
    exact ⟨((answers_iff _ _ _).mp h4).1, ((answers_iff _ _ _).mp h6).1⟩
  · intro hu
    obtain ⟨provider, hch, heq⟩ := Call.fetched_eq hne
    obtain ⟨s4, s6⟩ := hu provider hch
    obtain ⟨hr4, hr6, -⟩ := hch.settles
    refine ⟨provider, hch, _, _, (answers_iff _ _ _).mpr ⟨s4, hr4, rfl⟩,
      (answers_iff _ _ _).mpr ⟨s6, hr6, rfl⟩, ?_⟩
    rw [heq, replied, List.flatMap_append]

/-! ### Runs -/

/-- A call ends only if it is unmixed. -/
def unmixed (s : State) : Move → Prop
  | .begins _ => True
  | .ends i => ∀ c, s.asking[i]? = some c → c.Unmixed

/-- Every entry was stored by an unmixed call. -/
def CacheInv (s : State) : Prop :=
  ∀ host entry, s.cache host = some entry →
    ∃ c ∈ s.stored, c.host = host ∧ c.Unmixed ∧ c.fetched ≠ [] ∧ entry.addresses = c.fetched ∧
      entry.expiresAt = c.net.storedAt + CACHE_TTL_MS

theorem begin_frame (s : State) (c : Call) : (begin s c).cache = s.cache ∧ (begin s c).stored = s.stored := by
  unfold begin
  split_ifs
  · exact ⟨rfl, rfl⟩
  · split <;> exact ⟨rfl, rfl⟩

theorem CacheInv.finish {s : State} (h : CacheInv s) (i : ℕ) {c : Call} (hc : c.Unmixed) :
    CacheInv (finish s i c) := by
  unfold DohCache.finish
  split_ifs with hne
  · exact h
  · intro host entry he
    by_cases hhost : host = c.host
    · subst hhost
      dsimp only at he
      rw [Function.update_self, Option.some.injEq] at he
      exact ⟨c, List.mem_cons_self, rfl, hc, hne, by rw [← he], by rw [← he]⟩
    · dsimp only at he
      rw [Function.update_of_ne hhost] at he
      obtain ⟨c', hmem, hrest⟩ := h host entry he
      exact ⟨c', List.mem_cons_of_mem _ hmem, hrest⟩

theorem cacheInv_step {s s' : State} {m : Move} (h : CacheInv s) (hg : unmixed s m)
    (hs : step s m = some s') : CacheInv s' := by
  cases m with
  | begins c =>
    obtain rfl := Option.some.inj hs
    obtain ⟨hcache, hstored⟩ := begin_frame s c
    unfold CacheInv
    rw [hcache, hstored]
    exact h
  | ends i =>
    obtain ⟨c, hc, rfl⟩ := Option.map_eq_some_iff.mp hs
    exact h.finish i (hg c hc)

theorem cacheInv {s : State} (h : Reachable step idle unmixed s) : CacheInv s := by
  refine h.invariant ?_ fun _ _ _ _ hinv hg hs => cacheInv_step hinv hg hs
  intro host entry he
  cases he

theorem begin_miss {s : State} {c : Call} (hlit : isLiteralIp c.host = false)
    (hmiss : cached c.net s.cache c.host = none) : begin s c = { s with asking := s.asking ++ [c] } := by
  rw [begin, hlit, hmiss]
  rfl

/-- **A call that nothing interrupts leaves the cache that `resolve` leaves.** -/
theorem resolve_alone (s : State) (c : Call) (hlit : isLiteralIp c.host = false)
    (hmiss : cached c.net s.cache c.host = none) :
    ∃ s', step (begin s c) (.ends s.asking.length) = some s' ∧ s'.asking = s.asking ∧
      s'.cache = match (resolve c.net s.cache c.host).result with
        | .ok r => r.2
        | .error _ => s.cache := by
  have hbegin := begin_miss hlit hmiss
  have hstep : step (begin s c) (.ends s.asking.length) =
      some (finish (begin s c) s.asking.length c) := by
    rw [step, hbegin, List.getElem?_concat_length, Option.map_some]
  refine ⟨_, hstep, ?_, ?_⟩
  · rw [finish, hbegin]
    split_ifs <;> simp [List.eraseIdx_append_of_length_le]
  · rw [resolve, hlit, hmiss]
    simp only [Bool.false_eq_true, if_false]
    rw [Lookup.result_bind, c.result_fetched, finish, hbegin]
    simp only [Except.bind]
    split_ifs with hne
    · rw [Lookup.result_bind]
      cases (fallback c.net c.host).result <;> rfl
    · rfl

theorem resolve_cached {net : Net} {cache : Cache} {host : String} {l : List InetAddress}
    (hlit : isLiteralIp host = false) (hc : cached net cache host = some l) :
    resolve net cache host = pure (l, cache) := by
  rw [resolve, hlit, hc]
  rfl

/-- **Refinement.** A whole `resolve` whose provider answers both lookups leaves the cache of some run. -/
theorem resolve_reachable {s : State} (h : Reachable step idle unmixed s) {c : Call} (hu : c.Unmixed)
    {l : List InetAddress} {cache : Cache}
    (hr : (resolve c.net s.cache c.host).result = .ok (l, cache)) :
    ∃ s', Reachable step idle unmixed s' ∧ s'.cache = cache := by
  cases hlit : isLiteralIp c.host with
  | true =>
    rw [resolve, hlit, if_pos rfl, Lookup.result_bind] at hr
    obtain ⟨l', -, hl'⟩ := bind_eq_ok hr
    cases hl'
    exact ⟨s, h, rfl⟩
  | false =>
    cases hc : cached c.net s.cache c.host with
    | some found =>
      rw [resolve_cached hlit hc] at hr
      cases hr
      exact ⟨s, h, rfl⟩
    | none =>
      obtain ⟨s', hs, -, hcache⟩ := resolve_alone s c hlit hc
      rw [hr] at hcache
      refine ⟨s', (h.next (.begins c) trivial rfl).next (.ends s.asking.length) ?_ hs, hcache⟩
      intro c' hc'
      rw [begin_miss hlit hc, List.getElem?_concat_length] at hc'
      obtain rfl := Option.some.inj hc'
      exact hu

/-- **Cached answers are sound.** In a run whose calls end unmixed, a list that `resolve` returns from
the cache was stored, less than 60 seconds before, by a call for this host in which one provider
answered both lookups; it is the two answers. -/
theorem cache_not_poisoned {s : State} (h : Reachable step idle unmixed s) (c : Call)
    (l : List InetAddress) (hlit : isLiteralIp c.host = false) (hc : cached c.net s.cache c.host = some l) :
    resolve c.net s.cache c.host = pure (l, s.cache) ∧
      ∃ c' ∈ s.stored, c'.host = c.host ∧ c'.fetched = l ∧ c.net.now < c'.net.storedAt + 60000 ∧
        ∃ provider ∈ PROVIDERS, c'.Answered provider l := by
  refine ⟨resolve_cached hlit hc, ?_⟩
  obtain ⟨entry, he, hl⟩ := Option.bind_eq_some_iff.mp hc
  obtain ⟨c', hmem, hhost, hu, hne, haddr, hexp⟩ := cacheInv h c.host entry he
  split_ifs at hl with hfresh
  obtain rfl := Option.some.inj hl
  obtain ⟨provider, hch, hans⟩ := (answered_iff hne).mpr hu
  rw [haddr]
  rw [hexp] at hfresh
  exact ⟨c', hmem, hhost, rfl, hfresh, provider, hch.mem, hans⟩

/-! ### Two runs -/

/-- A call for `a` at some time. -/
def callFor (net : Net) (now : ℕ) : Call := ⟨"a", { net with now := now, storedAt := now }⟩

/-- The first call has come back. -/
def afterOne (net : Net) : State := finish (begin idle (callFor net 0)) 0 (callFor net 0)

theorem isLiteralIp_a : isLiteralIp "a" = false := by decide +kernel

theorem begin_first (net : Net) : begin idle (callFor net 0) = { idle with asking := [callFor net 0] } :=
  begin_miss isLiteralIp_a rfl

theorem afterOne_reachable {net : Net} {guard : State → Move → Prop}
    (hg : guard idle (.begins (callFor net 0)))
    (hg' : guard (begin idle (callFor net 0)) (.ends 0)) : Reachable step idle guard (afterOne net) := by
  refine (Reachable.init.next _ hg rfl).next (.ends 0) hg' ?_
  rw [step, afterOne, begin_first]
  rfl

theorem cache_not_poisoned_again :
    ∃ c' ∈ (afterOne answeringNet).stored, c'.host = "a" ∧
      ∃ provider ∈ PROVIDERS, c'.Answered provider [.inet4 ⟨[198, 51, 100, 7], rfl⟩] := by
  have hreach : Reachable step idle unmixed (afterOne answeringNet) := by
    refine afterOne_reachable trivial ?_
    intro c hc provider hch
    rw [begin_first] at hc
    cases hc
    exact ⟨rfl, rfl⟩
  obtain ⟨-, c', hmem, hhost, -, -, hans⟩ := cache_not_poisoned hreach (callFor answeringNet 1000)
    [.inet4 ⟨[198, 51, 100, 7], rfl⟩] isLiteralIp_a (by decide +kernel)
  exact ⟨c', hmem, hhost, hans⟩

/-- The first provider knows one address, and fails the second lookup. -/
def failingNet : Net :=
  { answeringNet with
    reply := fun _ _ type =>
      if type = .A then .responds 200 (.answers [some { type := 1, data := "198.51.100.7" }])
      else .responds 503 .malformed }

/-- A lookup that fails with status 503 leaves half an answer in the cache. -/
theorem failure_cached :
    ¬ ∀ s, Reachable step idle anyStep s → ∀ (c : Call) (l : List InetAddress),
      isLiteralIp c.host = false → cached c.net s.cache c.host = some l →
      ∃ c' ∈ s.stored, c'.host = c.host ∧ c'.fetched = l ∧ c.net.now < c'.net.storedAt + 60000 ∧
        ∃ provider ∈ PROVIDERS, c'.Answered provider l := by
  intro h
  obtain ⟨c', hmem, -, -, -, provider, -, v4, v6, -, h6, -⟩ := h (afterOne failingNet)
    (afterOne_reachable trivial trivial) (callFor failingNet 1000)
    [.inet4 ⟨[198, 51, 100, 7], rfl⟩] isLiteralIp_a (by decide +kernel)
  have hne : (callFor failingNet 0).fetched ≠ [] := by decide +kernel
  rw [afterOne, finish, if_neg hne, begin_first] at hmem
  obtain rfl := List.mem_singleton.mp hmem
  have hstatus : some (503 : ℤ) = some 200 := ((answers_iff _ _ _).mp h6).1
  exact absurd hstatus (by decide)

end BypassVpn.DohCache
