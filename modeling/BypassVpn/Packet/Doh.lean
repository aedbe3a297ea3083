import BypassVpn.Packet.DnsAnswer

/-!
# `DohResolver`: which strings reach `InetAddress`

The default resolver of `tryIntercept`. Everything outside the application (the providers, the clock,
`InetAddress`) is a `Net`; a run records every string it passes to `InetAddress`.

* `isIpLiteral`: the textual addresses that `InetAddress` parses without a lookup.
* `Lookup`: a computation with the strings it asks for, which survive an exception.
* `parseDnsJson`, `queryProvider`, `tryProviders`, `resolve`.
* `interceptedHost`: the one host for which `tryIntercept` consults its resolver.
* `intercept_lookups_literal_iff`: exactly when every string asked for is a literal.
-/

namespace BypassVpn

/-! ### Textual addresses -/

/-- The value of a decimal part of an IPv4 address. -/
def decimalPart (s : List Char) : Option ℕ :=
  if s ≠ [] ∧ s.all Char.isDigit then some (s.foldl (fun n c => 10 * n + (c.toNat - 48)) 0) else none

/-- `d`, `d.d`, `d.d.d` or `d.d.d.d`: the last part fills the remaining octets. -/
def isIpv4Literal (s : List Char) : Bool :=
  match (s.splitOn '.').mapM decimalPart with
  | some [a] => decide (a < 2 ^ 32)
  | some [a, b] => decide (a < 256 ∧ b < 2 ^ 24)
  | some [a, b, c] => decide (a < 256 ∧ b < 256 ∧ c < 2 ^ 16)
  | some [a, b, c, d] => decide (a < 256 ∧ b < 256 ∧ c < 256 ∧ d < 256)
  | _ => false

/-- A hexadecimal digit. -/
def isHexDigit (c : Char) : Bool :=
  c.isDigit || (decide ('a' ≤ c) && decide (c ≤ 'f')) || (decide ('A' ≤ c) && decide (c ≤ 'F'))

/-- The 16-bit groups of a colon-separated list; a dotted quad may stand last and counts twice. -/
def ipv6Groups : List (List Char) → Option ℕ
  | [] => some 0
  | [s] =>
    if s ≠ [] ∧ s.length ≤ 4 ∧ s.all isHexDigit then some 1
    else if (s.splitOn '.').length = 4 ∧ isIpv4Literal s then some 2 else none
  | s :: rest =>
    if s ≠ [] ∧ s.length ≤ 4 ∧ s.all isHexDigit then (ipv6Groups rest).map (· + 1) else none

/-- The groups of one side of `::`, which may be empty. -/
def ipv6Side (s : List Char) : Option ℕ := if s = [] then some 0 else ipv6Groups (s.splitOn ':')

/-- Eight groups, or at most seven around one `::`. -/
def isIpv6Address (s : List Char) : Bool :=
  decide (ipv6Groups (s.splitOn ':') = some 8) ||
    (List.range s.length).any fun i =>
      decide ((s.drop i).take 2 = [':', ':']) &&
        match ipv6Side (s.take i), ipv6Side (s.drop (i + 2)) with
        | some a, some b => decide (a + b ≤ 7) && !(s.take i).contains '.'
        | _, _ => false

/-- An IPv6 address, possibly with a scope identifier and in brackets. -/
def isIpv6Literal (s : List Char) : Bool :=
  let s := if s.head? = some '[' ∧ s.getLast? = some ']' then s.tail.dropLast else s
  isIpv6Address (s.takeWhile (· ≠ '%')) && decide (s.dropWhile (· ≠ '%') ≠ ['%'])

/-- The strings that `InetAddress.getByName` and `getAllByName` parse without a lookup. -/
def isIpLiteral (host : String) : Bool := isIpv4Literal host.toList || isIpv6Literal host.toList

/-- `ipLiteralRegex.matches(host) || host.contains(":")`. -/
def isLiteralIp (host : String) : Bool :=
  let parts := host.toList.splitOn '.'
  (decide (parts.length = 4) &&
    parts.all fun p => decide (1 ≤ p.length ∧ p.length ≤ 3) && p.all Char.isDigit) ||
  host.toList.contains ':'

/-- `Char.isWhitespace` of Kotlin. -/
def isWhitespace (c : Char) : Bool :=
  let n := c.toNat
  decide ((0x09 ≤ n ∧ n ≤ 0x0D) ∨ (0x1C ≤ n ∧ n ≤ 0x20) ∨ n = 0xA0 ∨ n = 0x1680 ∨
    (0x2000 ≤ n ∧ n ≤ 0x200A) ∨ n = 0x2028 ∨ n = 0x2029 ∨ n = 0x202F ∨ n = 0x205F ∨ n = 0x3000)

/-- `isNotBlank`. -/
def isNotBlank (s : String) : Bool := s.toList.any fun c => !isWhitespace c

/-! ### Computations that ask `InetAddress` -/

/-- The strings passed to `InetAddress`, in order, and the outcome. -/
structure Lookup (α : Type) where
  calls : List String
  result : Except Exn α

namespace Lookup

variable {α β : Type}

instance : Monad Lookup where
  pure a := ⟨[], .ok a⟩
  bind x f := match x.result with
    | .ok a => ⟨x.calls ++ (f a).calls, (f a).result⟩
    | .error e => ⟨x.calls, .error e⟩

/-- The lookup fails; it has asked for no further string. -/
def throw (e : Exn) : Lookup α := ⟨[], .error e⟩

/-- `try { x } catch (e) { h e }`. -/
def catching (x : Lookup α) (h : Exn → Lookup α) : Lookup α :=
  match x.result with
  | .ok _ => x
  | .error e => ⟨x.calls ++ (h e).calls, (h e).result⟩

/-- Every string asked for is a literal. -/
def Literal (x : Lookup α) : Prop := ∀ name ∈ x.calls, isIpLiteral name = true

@[simp] theorem literal_pure (a : α) : (pure a : Lookup α).Literal := by
  intro name hn
  cases hn

@[simp] theorem literal_throw (e : Exn) : (throw e : Lookup α).Literal := by
  intro name hn
  cases hn

/-- Sequencing asks what the first part asks and, if that returns, what the second part asks. -/
theorem literal_bind {x : Lookup α} {f : α → Lookup β} :
    (x >>= f).Literal ↔ x.Literal ∧ ∀ a, x.result = .ok a → (f a).Literal := by
  obtain ⟨calls, result⟩ := x
  cases result with
  | error e => exact ⟨fun h => ⟨h, by simp⟩, fun h => h.1⟩
  | ok a =>
    change (∀ name ∈ calls ++ (f a).calls, isIpLiteral name = true) ↔ _
    simp only [List.forall_mem_append, Except.ok.injEq, forall_eq', Literal]

theorem literal_catching {x : Lookup α} {h : Exn → Lookup α} :
    (x.catching h).Literal ↔ x.Literal ∧ ∀ e, x.result = .error e → (h e).Literal := by
  obtain ⟨calls, result⟩ := x
  cases result with
  | ok a => exact ⟨fun h => ⟨h, by simp⟩, fun h => h.1⟩
  | error e =>
    change (∀ name ∈ calls ++ (h e).calls, isIpLiteral name = true) ↔ _
    simp only [List.forall_mem_append, Except.error.injEq, forall_eq', Literal]

@[simp] theorem result_pure (a : α) : (pure a : Lookup α).result = .ok a := rfl

@[simp] theorem result_throw (e : Exn) : (throw e : Lookup α).result = .error e := rfl

theorem result_bind (x : Lookup α) (f : α → Lookup β) :
    (x >>= f).result = x.result.bind fun a => (f a).result := by
  obtain ⟨calls, result⟩ := x
  cases result <;> rfl

theorem result_catching (x : Lookup α) (h : Exn → Lookup α) :
    (x.catching h).result = x.result.tryCatch fun e => (h e).result := by
  obtain ⟨calls, result⟩ := x
  cases result <;> rfl

end Lookup

/-! ### The outside -/

/-- The `type` of a DoH query. -/
inductive QueryType where
  | A
  | AAAA
  deriving DecidableEq

/-- An object of the `Answer` array: `optInt("type")` and `optString("data")`. -/
structure Record where
  type : ℤ
  data : String

/-- The body of a reply: one that cannot be read or is not a JSON object, one without an `Answer`
array, or the elements of that array, `none` for one that is no object. -/
inductive Body where
  | malformed
  | noAnswer
  | answers (elements : List (Option Record))

/-- How a connection ends: with an exception (a timeout, say), or with a status and a body. -/
inductive Reply where
  | fails
  | responds (code : ℤ) (body : Body)

/-- Everything `DohResolver` reads from outside the application. -/
structure Net where
  reply : (providerIp host : String) → QueryType → Reply
  /-- The hosts of the redirects that the connection follows before it ends. -/
  redirects : (providerIp host : String) → QueryType → List String
  getByName : String → Except Exn InetAddress
  getAllByName : String → Except Exn (List InetAddress)
  /-- `System.currentTimeMillis()` at the cache test and at the cache entry. -/
  now : ℕ
  storedAt : ℕ

/-- An entry of the cache. -/
structure CacheEntry where
  addresses : List InetAddress
  expiresAt : ℕ

/-- The cache of `DohResolver`. -/
abbrev Cache := String → Option CacheEntry

def CACHE_TTL_MS : ℕ := 60000

def PROVIDERS : List String := ["94.140.14.14", "1.1.1.1", "9.9.9.9"]

def unknownHost : Exn := .other "UnknownHostException"

/-! ### The resolver -/

variable (net : Net)

/-- `InetAddress.getByName(name)` whose exceptions are swallowed: the address, if there is one. -/
def askByName (name : String) : Lookup (List InetAddress) :=
  Lookup.catching ⟨[name], (net.getByName name).map fun a => [a]⟩ fun _ => pure []

/-- The loop over the `Answer` array. -/
def readAnswers : List (Option Record) → List InetAddress → Lookup (List InetAddress)
  | [], result => pure result
  | none :: _, _ => Lookup.throw (.other "JSONException")
  | some rec :: rest, result =>
    if rec.type = 1 ∨ rec.type = 28 then
      if isNotBlank rec.data then do
        let added ← askByName net rec.data
        readAnswers rest (result ++ added)
      else readAnswers rest result
    else readAnswers rest result

/-- `parseDnsJson`. -/
def parseDnsJson : Body → Lookup (List InetAddress)
  | .malformed => Lookup.throw (.other "JSONException")
  | .noAnswer => pure []
  | .answers elements => readAnswers net elements []

/-- `queryProvider` from `conn.responseCode` on. -/
def handleReply : Reply → Lookup (List InetAddress)
  | .fails => Lookup.throw (.other "IOException")
  | .responds code body => if code ≠ 200 then pure [] else parseDnsJson net body

/-- `queryProvider`. -/
def queryProvider (providerIp host : String) (type : QueryType) : Lookup (List InetAddress) := do
  -- the connection resolves the host of its URL, and of every redirect it follows
  (⟨providerIp :: net.redirects providerIp host type, .ok ()⟩ : Lookup Unit)
  handleReply net (net.reply providerIp host type)

/-- The `try` block of the loop over the providers. -/
def queryBoth (providerIp host : String) : Lookup (List InetAddress) := do
  let v4 ← queryProvider net providerIp host .A
  let v6 ← queryProvider net providerIp host .AAAA
  pure (v4 ++ v6)

/-- The addresses of the first provider that gives one. -/
def tryProviders (host : String) : List String → Lookup (List InetAddress)
  | [] => pure []
  | provider :: rest => do
    let all ← Lookup.catching (queryBoth net provider host) fun _ => pure []
    if all = [] then tryProviders host rest else pure all

/-- The addresses of an unexpired cache entry. -/
def cached (cache : Cache) (host : String) : Option (List InetAddress) :=
  (cache host).bind fun entry => if net.now < entry.expiresAt then some entry.addresses else none

/-- `InetAddress.getAllByName(host)` where only `UnknownHostException` is caught. -/
def fallback (host : String) : Lookup (List InetAddress) :=
  Lookup.catching ⟨[host], net.getAllByName host⟩ fun e => if e = unknownHost then pure [] else Lookup.throw e

/-- The addresses and the cache afterwards. -/
def resolve (cache : Cache) (host : String) : Lookup (List InetAddress × Cache) :=
  if isLiteralIp host then do return (← askByName net host, cache)
  else match cached net cache host with
    | some addresses => pure (addresses, cache)
    | none => do
      let all ← tryProviders net host PROVIDERS
      if all = [] then return (← fallback net host, cache)
      else return (all, Function.update cache host (some ⟨all, net.storedAt + CACHE_TTL_MS⟩))

/-- `DohResolver::resolve` as the resolver of `tryIntercept`. -/
def dohResolver (cache : Cache) : Resolver := fun host => (resolve net cache host).result.map (·.1)

/-! ### The host that a query asks for -/

/-- The host for which `tryIntercept` consults its resolver, if it does. -/
def interceptedHost (pkt : Bytes) (length ipHdrLen : ℕ) (config : BypassConfig) : Option String :=
  if !config.dnsInterceptEnabled || decide (length < ipHdrLen + 8) then none
  else match u16At pkt (ipHdrLen + 2), u16At pkt (ipHdrLen + 4) with
    | .ok dPort, .ok udpLen =>
      let dnsLen := min (udpLen - 8) (length - (ipHdrLen + 8))
      if dPort ≠ DNS_PORT ∨ dnsLen < 12 then none
      else match copyOfRange pkt (ipHdrLen + 8) (ipHdrLen + 8 + dnsLen) >>= parseQuestion with
        | .ok (some (host, _, _)) => some host
        | _ => none
    | _, _ => none

/-- The strings passed to `InetAddress` while `tryIntercept` handles a packet with `dohResolver`. -/
def interceptLookups (cache : Cache) (pkt : Bytes) (length ipHdrLen : ℕ) (config : BypassConfig) :
    List String :=
  match interceptedHost pkt length ipHdrLen config with
  | some host => (resolve net cache host).calls
  | none => []

/-! ### What the replies make it ask -/

/-- The addresses that `InetAddress.getByName` finds: one, or none where it throws. -/
def found (name : String) : List InetAddress :=
  match net.getByName name with
  | .ok a => [a]
  | .error _ => []

/-- The record's `data` is handed to `getByName`. -/
def Record.asks (r : Record) : Bool := (r.type == 1 || r.type == 28) && isNotBlank r.data

/-- The `data` strings handed to `getByName`: those before the first element that is no object. -/
def askedNames : List (Option Record) → List String
  | [] => []
  | none :: _ => []
  | some rec :: rest => if rec.asks then rec.data :: askedNames rest else askedNames rest

/-- The names in a reply that are handed to `getByName`. -/
def Reply.names : Reply → List String
  | .responds 200 (.answers elements) => askedNames elements
  | _ => []

/-- The reply is read to its end without an exception. -/
def Reply.readable : Reply → Bool
  | .fails => false
  | .responds 200 .malformed => false
  | .responds 200 (.answers elements) => elements.all Option.isSome
  | _ => true

theorem result_askByName (name : String) : (askByName net name).result = .ok (found net name) := by
  rw [askByName, Lookup.result_catching, found]
  cases net.getByName name <;> rfl

theorem literal_askByName {name : String} : (askByName net name).Literal ↔ isIpLiteral name = true := by
  rw [askByName, Lookup.literal_catching]
  constructor
  · intro h
    exact h.1 name (List.mem_singleton_self name)
  · intro h
    refine ⟨fun n hn => ?_, fun _ _ => Lookup.literal_pure _⟩
    rw [List.mem_singleton.mp hn]
    exact h

theorem readAnswers_cons (rec : Record) (rest : List (Option Record)) (result : List InetAddress) :
    readAnswers net (some rec :: rest) result =
      if rec.asks then askByName net rec.data >>= fun added => readAnswers net rest (result ++ added)
      else readAnswers net rest result := by
  rw [readAnswers]
  by_cases h1 : rec.type = 1 ∨ rec.type = 28
  · by_cases h2 : isNotBlank rec.data = true <;> simp [Record.asks, h1, h2]
  · simp [Record.asks, h1]

theorem result_readAnswers (elements : List (Option Record)) (result : List InetAddress) :
    (readAnswers net elements result).result =
      if elements.all Option.isSome then .ok (result ++ (askedNames elements).flatMap (found net))
      else .error (.other "JSONException") := by
  induction elements generalizing result with
  | nil => simp [readAnswers, askedNames]
  | cons element rest ih =>
    cases element with
    | none => simp [readAnswers]
    | some rec =>
      rw [readAnswers_cons, askedNames]
      by_cases h : rec.asks = true
      · simp [h, Lookup.result_bind, result_askByName, Except.bind, ih]
      · simp [h, ih]

theorem literal_readAnswers (elements : List (Option Record)) (result : List InetAddress) :
    (readAnswers net elements result).Literal ↔ ∀ name ∈ askedNames elements, isIpLiteral name = true := by
  induction elements generalizing result with
  | nil => simp [readAnswers, askedNames]
  | cons element rest ih =>
    cases element with
    | none => simp [readAnswers, askedNames]
    | some rec =>
      rw [readAnswers_cons, askedNames]
      by_cases h : rec.asks = true
      · simp [h, Lookup.literal_bind, literal_askByName, result_askByName, ih]
      · simp [h, ih]

theorem literal_handleReply (reply : Reply) :
    (handleReply net reply).Literal ↔ ∀ name ∈ reply.names, isIpLiteral name = true := by
  cases reply with
  | fails => simp [handleReply, Reply.names]
  | responds code body =>
    by_cases h : code = 200
    · subst h
      cases body <;> simp [handleReply, parseDnsJson, Reply.names, literal_readAnswers]
    · have hn : (Reply.responds code body).names = [] := by
        unfold Reply.names
        split <;> simp_all
      simp [handleReply, h, hn]

theorem result_handleReply (reply : Reply) :
    (reply.readable = true ∧ (handleReply net reply).result = .ok (reply.names.flatMap (found net))) ∨
      (reply.readable = false ∧ ∃ e, (handleReply net reply).result = .error e) := by
  cases reply with
  | fails => exact .inr ⟨rfl, _, rfl⟩
  | responds code body =>
    by_cases h : code = 200
    · subst h
      cases body with
      | malformed => exact .inr ⟨rfl, _, rfl⟩
      | noAnswer => exact .inl ⟨rfl, rfl⟩
      | answers elements =>
        have hr : (handleReply net (.responds 200 (.answers elements))).result = _ :=
          result_readAnswers net elements []
        by_cases ha : elements.all Option.isSome = true
        · exact .inl ⟨ha, by rw [hr, if_pos ha]; rfl⟩
        · exact .inr ⟨eq_false_of_ne_true ha, _, by rw [hr, if_neg ha]⟩
    · have hn : (Reply.responds code body).names = [] := by
        unfold Reply.names
        split <;> simp_all
      have hr : (Reply.responds code body).readable = true := by
        unfold Reply.readable
        split <;> simp_all
      exact .inl ⟨hr, by simp [handleReply, h, hn]⟩

/-- The names that one query makes the resolver ask for: redirects, then the reply's. -/
def Net.names (providerIp host : String) (type : QueryType) : List String :=
  net.redirects providerIp host type ++ (net.reply providerIp host type).names

/-- Both replies of the provider are read to their end, and one of them names an address. -/
def Settles (host provider : String) : Prop :=
  (net.reply provider host .A).readable = true ∧ (net.reply provider host .AAAA).readable = true ∧
    ∃ name ∈ (net.reply provider host .A).names ++ (net.reply provider host .AAAA).names, found net name ≠ []

/-- The replies that are read, up to the provider that settles the query, name literals only; where
none settles it, the host is one. -/
def Quiet (host : String) : List String → Prop
  | [] => isIpLiteral host = true
  | provider :: rest =>
    (∀ name ∈ net.names provider host .A, isIpLiteral name = true) ∧
    ((net.reply provider host .A).readable = true →
      ∀ name ∈ net.names provider host .AAAA, isIpLiteral name = true) ∧
    (¬ Settles net host provider → Quiet host rest)

variable {net} {host provider : String}

theorem literal_queryProvider (hp : isIpLiteral provider = true) (type : QueryType) :
    (queryProvider net provider host type).Literal ↔
      ∀ name ∈ net.names provider host type, isIpLiteral name = true := by
  rw [queryProvider, Lookup.literal_bind, Net.names, List.forall_mem_append]
  refine and_congr (List.forall_mem_cons.trans (and_iff_right hp)) ?_
  constructor
  · intro h
    exact (literal_handleReply net _).mp (h () rfl)
  · intro h _ _
    exact (literal_handleReply net _).mpr h

theorem result_queryProvider (type : QueryType) :
    (queryProvider net provider host type).result =
    (handleReply net (net.reply provider host type)).result := by
  rw [queryProvider, Lookup.result_bind]
  rfl

theorem literal_queryBoth (hp : isIpLiteral provider = true) :
    (queryBoth net provider host).Literal ↔
      (∀ name ∈ net.names provider host .A, isIpLiteral name = true) ∧
      ((net.reply provider host .A).readable = true →
        ∀ name ∈ net.names provider host .AAAA, isIpLiteral name = true) := by
  rw [queryBoth, Lookup.literal_bind, literal_queryProvider hp]
  refine and_congr_right fun _ => ?_
  rw [result_queryProvider]
  rcases result_handleReply net (net.reply provider host .A) with ⟨hr, he⟩ | ⟨hr, e, he⟩
  · simp [hr, he, Lookup.literal_bind, literal_queryProvider hp]
  · simp [hr, he]

/-- The `try` block of a provider: every address of its two replies, or an exception. -/
theorem result_queryBoth :
    ((net.reply provider host .A).readable = true ∧ (net.reply provider host .AAAA).readable = true ∧
      (queryBoth net provider host).result = .ok
        (((net.reply provider host .A).names ++ (net.reply provider host .AAAA).names).flatMap (found net))) ∨
    (¬ Settles net host provider ∧ ∃ e, (queryBoth net provider host).result = .error e) := by
  rw [queryBoth, Lookup.result_bind, result_queryProvider]
  rcases result_handleReply net (net.reply provider host .A) with ⟨h4, he4⟩ | ⟨h4, e, he4⟩
  · rw [he4]
    simp only [Except.bind, Lookup.result_bind, result_queryProvider]
    rcases result_handleReply net (net.reply provider host .AAAA) with ⟨h6, he6⟩ | ⟨h6, e, he6⟩
    · rw [he6, List.flatMap_append]
      exact .inl ⟨h4, h6, rfl⟩
    · rw [he6]
      exact .inr ⟨fun hs => (by rw [hs.2.1] at h6; cases h6), e, rfl⟩
  · rw [he4]
    exact .inr ⟨fun hs => (by rw [hs.1] at h4; cases h4), e, rfl⟩

/-- The list that the loop tests: empty exactly when the provider does not settle the query. -/
theorem result_provider :
    ∃ all, (Lookup.catching (queryBoth net provider host) fun _ => pure []).result = .ok all ∧
      (all = [] ↔ ¬ Settles net host provider) := by
  rw [Lookup.result_catching]
  rcases @result_queryBoth net host provider with ⟨h4, h6, he⟩ | ⟨hs, e, he⟩
  · rw [he]
    refine ⟨_, rfl, ?_⟩
    rw [List.flatMap_eq_nil_iff, Settles]
    simp only [h4, h6, true_and, not_exists, not_and, ne_eq, not_not]
  · rw [he]
    exact ⟨[], rfl, iff_of_true rfl hs⟩

theorem literal_provider :
    (Lookup.catching (queryBoth net provider host) fun _ => pure []).Literal ↔
      (queryBoth net provider host).Literal := by
  rw [Lookup.literal_catching]
  exact and_iff_left fun _ _ => Lookup.literal_pure _

/-- **The loop over the providers, and the fallback behind it.** -/
theorem literal_tryProviders {providers : List String} (hps : ∀ p ∈ providers, isIpLiteral p = true) :
    ((tryProviders net host providers).Literal ∧
      ((tryProviders net host providers).result = .ok [] → isIpLiteral host = true)) ↔
    Quiet net host providers := by
  induction providers with
  | nil => simp [tryProviders, Quiet]
  | cons provider rest ih =>
    obtain ⟨hp, hrest⟩ := List.forall_mem_cons.mp hps
    obtain ⟨all, hall, hempty⟩ := @result_provider net host provider
    rw [tryProviders, Lookup.literal_bind, Lookup.result_bind, hall, literal_provider, literal_queryBoth hp,
      Quiet, ← ih hrest, ← hempty]
    by_cases h : all = []
    · simp [h, Except.bind, and_assoc]
    · simp [h, Except.bind]

theorem providers_literal : ∀ p ∈ PROVIDERS, isIpLiteral p = true := by decide +kernel

theorem literal_fallback : (fallback net host).Literal ↔ isIpLiteral host = true := by
  rw [fallback, Lookup.literal_catching]
  constructor
  · intro h
    exact h.1 host (List.mem_singleton_self host)
  · intro h
    refine ⟨fun n hn => ?_, fun e _ => ?_⟩
    · rw [List.mem_singleton.mp hn]
      exact h
    · split_ifs
      · exact Lookup.literal_pure _
      · exact Lookup.literal_throw _

/-- The literal shortcut, the cache, the providers and the fallback. -/
theorem literal_resolve (cache : Cache) :
    (resolve net cache host).Literal ↔
      (isLiteralIp host = true → isIpLiteral host = true) ∧
      (isLiteralIp host = false → cached net cache host = none → Quiet net host PROVIDERS) := by
  rw [resolve]
  by_cases hl : isLiteralIp host = true
  · simp [hl, Lookup.literal_bind, literal_askByName]
  · rw [if_neg hl]
    cases hc : cached net cache host with
    | some addresses => simp [hl]
    | none =>
      simp only [hl, true_implies, false_implies, true_and, Bool.false_eq_true]
      rw [← literal_tryProviders providers_literal, Lookup.literal_bind]
      refine and_congr_right fun _ => ?_
      constructor
      · intro h hr
        have := h [] hr
        rw [if_pos rfl, Lookup.literal_bind, literal_fallback] at this
        exact this.1
      · intro h all hr
        split_ifs with he
        · rw [Lookup.literal_bind, literal_fallback]
          exact ⟨h (he ▸ hr), fun _ _ => Lookup.literal_pure _⟩
        · exact Lookup.literal_pure _

/-! ### The resolver behind `tryIntercept` -/

/-- `answerQuery` consults its resolver for the host of the question only. -/
theorem answerQuery_congr {r r' : Resolver} {pkt : Bytes} {ipHdrLen : ℕ} {v : IpVersion}
    {dnsOffset dnsLen : ℕ}
    (h : ∀ host qType len, copyOfRange pkt dnsOffset (dnsOffset + dnsLen) >>= parseQuestion =
      .ok (some (host, qType, len)) → r host = r' host) :
    answerQuery r pkt ipHdrLen v dnsOffset dnsLen = answerQuery r' pkt ipHdrLen v dnsOffset dnsLen := by
  unfold answerQuery
  apply liftArray_bind_congr
  intro query hc
  apply liftArray_bind_congr
  intro parsed hp
  cases parsed with
  | none => rfl
  | some q =>
    obtain ⟨host, qType, len⟩ := q
    rw [hc] at h
    simp only [h host qType len hp]

/-- `tryIntercept` consults its resolver for `interceptedHost` only. -/
theorem tryIntercept_congr {r r' : Resolver} {pkt : Bytes} {length ipHdrLen : ℕ} {v : IpVersion}
    {config : BypassConfig}
    (h : ∀ host, interceptedHost pkt length ipHdrLen config = some host → r host = r' host) :
    tryIntercept r pkt length ipHdrLen v config = tryIntercept r' pkt length ipHdrLen v config := by
  unfold tryIntercept
  unfold interceptedHost at h
  by_cases hen : config.dnsInterceptEnabled = true
  swap
  · simp [hen]
  by_cases hlen : length < ipHdrLen + 8
  · simp [hlen]
  simp only [hen, hlen, Bool.not_true, Bool.false_or, decide_false, Bool.false_eq_true, if_false] at h ⊢
  apply liftArray_bind_congr
  intro dPort hd
  by_cases hport : dPort = DNS_PORT
  swap
  · rw [if_pos hport, if_pos hport]
  rw [if_neg (not_not.mpr hport), if_neg (not_not.mpr hport)]
  apply liftArray_bind_congr
  intro udpLen hu
  rw [hd, hu] at h
  by_cases hdns : min (udpLen - 8) (length - (ipHdrLen + 8)) < 12
  · simp only [hdns, if_true]
  simp only [hport, hdns, ne_eq, not_true, or_self, if_false] at h ⊢
  rw [answerQuery_congr]
  intro host qType len hq
  apply h
  rw [hq]

variable (net)

/-- **Where names leak.** The strings passed to `InetAddress` while a parsed query is answered are all
literals exactly when the host is one if it looks like one, and otherwise the cache has an unexpired
entry for it or the replies read before a provider settles the query name literals only; where no
provider settles it, the fallback passes the host itself. The resolver is consulted for that host alone.
-/
theorem intercept_lookups_literal_iff (cache : Cache) (pkt : Bytes) (length ipHdrLen : ℕ) (v : IpVersion)
    (config : BypassConfig) (host : String) (hq : interceptedHost pkt length ipHdrLen config = some host) :
    (∀ r : Resolver, r host = dohResolver net cache host →
      tryIntercept r pkt length ipHdrLen v config =
        tryIntercept (dohResolver net cache) pkt length ipHdrLen v config) ∧
    ((∀ name ∈ interceptLookups net cache pkt length ipHdrLen config, isIpLiteral name = true) ↔
      (isLiteralIp host = true → isIpLiteral host = true) ∧
      (isLiteralIp host = false → cached net cache host = none → Quiet net host PROVIDERS)) := by
  constructor
  · intro r hr
    apply tryIntercept_congr
    intro host' hq'
    rw [hq, Option.some.injEq] at hq'
    exact hq' ▸ hr
  · rw [interceptLookups, hq]
    exact literal_resolve cache

/-- Nobody answers: every connection times out and no lookup succeeds. -/
def silentNet : Net where
  reply _ _ _ := .fails
  redirects _ _ _ := []
  getByName _ := .error unknownHost
  getAllByName _ := .error unknownHost
  now := 0
  storedAt := 0

/-- The first provider knows one address of every host. -/
def answeringNet : Net where
  reply _ _ type := .responds 200 (match type with
    | .A => .answers [some { type := 1, data := "198.51.100.7" }]
    | .AAAA => .noAnswer)
  redirects _ _ _ := []
  getByName _ := .ok (.inet4 ⟨[198, 51, 100, 7], rfl⟩)
  getAllByName _ := .error unknownHost
  now := 0
  storedAt := 0

theorem interceptedHost_queryPacket : interceptedHost queryPacket 47 20 (loadPreset "universal") =
    some "a" := by
  decide +kernel

theorem quiet_answeringNet : Quiet answeringNet "a" PROVIDERS := by
  have hn : isIpLiteral "198.51.100.7" = true := by decide +kernel
  have hs : Settles answeringNet "a" "94.140.14.14" :=
    ⟨rfl, rfl, "198.51.100.7", List.mem_singleton_self _, List.cons_ne_nil _ _⟩
  refine ⟨?_, ?_, fun h => absurd hs h⟩
  · intro name h
    rw [List.mem_singleton.mp h]
    exact hn
  · intro _ name h
    cases h

theorem intercept_lookups_literal_iff_queryPacket :
    (interceptLookups answeringNet (fun _ => none) queryPacket 47 20 (loadPreset "universal")).all
    isIpLiteral =
      true := by
  rw [List.all_eq_true]
  exact (intercept_lookups_literal_iff answeringNet (fun _ => none) queryPacket 47 20 .v4
    (loadPreset "universal")
    "a" interceptedHost_queryPacket).2.mpr ⟨by decide +kernel, fun _ _ => quiet_answeringNet⟩

/-- A query for the name `a` while no provider answers. -/
theorem name_reaches_system_resolver :
    ¬ ∀ (net : Net) (cache : Cache) (pkt : Bytes) (length ipHdrLen : ℕ) (config : BypassConfig)
      (host : String), interceptedHost pkt length ipHdrLen config = some host →
      ∀ name ∈ interceptLookups net cache pkt length ipHdrLen config, isIpLiteral name = true := by
  intro h
  have hmem : "a" ∈ interceptLookups silentNet (fun _ => none) queryPacket 47 20
      (loadPreset "universal") := by
    decide +kernel
  have ha := h silentNet (fun _ => none) queryPacket 47 20 (loadPreset "universal") "a"
    interceptedHost_queryPacket "a" hmem
  exact absurd ha (by decide +kernel)

end BypassVpn
