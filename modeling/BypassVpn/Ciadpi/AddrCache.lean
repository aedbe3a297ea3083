import Mathlib.Logic.Function.Basic
import BypassVpn.Ciadpi.Address
import BypassVpn.Ciadpi.Mpool

/-!
# Pools of addresses in `extend.c`: the cache and the address sets

The cache keeps, for an address and a port, which groups have failed there. Its keys are `struct
cache_key`s in a pool under `CMP_BITS`. A set of addresses is a pool of prefixes.

* `serializeAddr`, `eqBitlen`, `cacheGet`, `cacheAdd`, `checkIp`.
* `fullKey`: the key of a whole address; `Full`: the cache holds only such keys.
* **`cache_run`**: as long as no prefix length is set, the cache is a map from addresses to records.
* **`cacheGet_expired`**: what a look-up deletes when it finds a record too old.
* **`checkIp_iff`**: which addresses are in a set.
-/

namespace BypassVpn.Ciadpi.Mpool

open SearchTree Prefixes

/-- The fields of a `struct elem_i` behind `main`; `Δ` are the pointers to groups. -/
structure ElemI (Δ : Type) where
  dpMask : ℕ
  dp : Option Δ
  detect : ℕ
  time : ℤ
  extra : Option Bytes
  deriving DecidableEq

/-- What `calloc` returns. -/
def ElemI.zero (Δ : Type) : ElemI Δ := ⟨0, none, 0, 0, none⟩

/-- `sa_family` in memory. -/
def familyBytes : Family → Bytes
  | .AF_INET => [2, 0]
  | .AF_INET6 => [10, 0]

/-- A `struct cache_key`, of which as much is used as the address takes. -/
def serializeAddr (dst : SockaddrU) : Bytes := familyBytes dst.family ++ dst.port ++ dst.addr

/-- How many bytes the two strings have in common at their heads, up to `n`. -/
def commonBytes : Bytes → Bytes → ℕ → ℕ
  | a :: p, b :: q, n + 1 => if a = b then commonBytes p q n + 1 else 0
  | _, _, _ => 0

/-- How far two `char`s have to be shifted right to be equal, up to 8. -/
def shiftsToEqual (signed : Bool) (a b : UInt8) : ℕ :=
  ((List.range 8).find? fun bi => charVal signed a / (2 ^ bi : ℕ) == charVal signed b / (2 ^ bi : ℕ)).getD 8

/-- `eq_bitlen`: the length of the common prefix of two addresses, in bits. -/
def eqBitlen (signed : Bool) (a b : Bytes) (n : ℕ) : ℕ :=
  let by' := commonBytes a b n
  by' * 8 + 8 - if by' ≠ n then shiftsToEqual signed (a.getD by' 0) (b.getD by' 0) else 0

variable {Δ : Type} (signed : Bool)

/-- The cache after the call, and the record found; `ttl` is the `cache_ttl` of a group. -/
def cacheGet (ttl : Δ → ℤ) (now : ℤ) (cache : Mphdr (ElemI Δ)) (dst : SockaddrU) :
    Option (Mphdr (ElemI Δ) × Option (ElemI Δ)) :=
  let key := serializeAddr dst
  let len := key.length
  match memGet signed cache ⟨len * 8, key⟩ with
  | none => some (cache, none)
  | some val =>
    let cacheTtl := (val.extra.dp.map ttl).getD 0
    if cacheTtl ≠ 0 ∧ now > val.extra.time + cacheTtl then
      -- the length is in bytes here, where the pool counts bits
      (memDelete signed cache ⟨len, key⟩).map fun cache => (cache, none)
    else some (cache, some val.extra)

/-- What `cache_add` writes to the record: the time, and the host where there is none yet. -/
def ElemI.touch (now : ℤ) (host : Option Bytes) (r : ElemI Δ) : ElemI Δ :=
  { r with time := now, extra := if r.extra.isNone then host else r.extra }

/-- The length of the key that `cache_add` uses. -/
def cacheCmpLen (cachePre : ℕ) (cache : Mphdr (ElemI Δ)) (dst : SockaddrU) : ℕ :=
  let key := serializeAddr dst
  let cmpLen := key.length * 8
  if dst.family = .AF_INET ∧ cachePre ≠ 0 then
    match memGet signed cache ⟨cmpLen - cachePre, key⟩ with
    | some val => eqBitlen signed key val.data key.length
    | none => cmpLen
  else cmpLen

/-- `cache_add`, and what its caller then writes to the record by `f`. -/
def cacheAdd (cachePre : ℕ) (now : ℤ) (cache : Mphdr (ElemI Δ)) (dst : SockaddrU) (host : Option Bytes)
    (f : ElemI Δ → ElemI Δ) : Option (Mphdr (ElemI Δ)) :=
  let key : Key := ⟨cacheCmpLen signed cachePre cache dst, serializeAddr dst⟩
  (memAdd signed cache ⟨key, .zero Δ⟩).map fun p => memUpdate signed p.1 key fun r => f (r.touch now host)

/-- The key of an address with all its bits. -/
def fullKey (dst : SockaddrU) : Key := ⟨(serializeAddr dst).length * 8, serializeAddr dst⟩

theorem fits_fullKey (dst : SockaddrU) : (fullKey dst).FitsBits := by
  rw [Key.FitsBits, fullKey]
  dsimp only
  omega

theorem bits_fullKey (dst : SockaddrU) : (fullKey dst).bits = bitString (serializeAddr dst) := by
  rw [Key.bits, fullKey]
  exact List.take_of_length_le (by rw [length_bitString, Nat.mul_comm])

theorem natBits_inj {n a b : ℕ} (ha : a < 2 ^ n) (hb : b < 2 ^ n) (h : natBits n a = natBits n b) : a = b := by
  have hc := cmp_natBits n a b ha hb
  rw [h, cmp_eq_iff.mpr (Tie.refl _)] at hc
  exact compare_eq_iff_eq.mp hc.symm

/-- A string of whole bytes is a prefix of another as the bytes are. -/
theorem prefix_of_bitString {p : Bytes} : ∀ {q : Bytes}, bitString p <+: bitString q → p <+: q := by
  induction p with
  | nil => exact fun {q} _ => q.nil_prefix
  | cons a p ih =>
    intro q h
    cases q with
    | nil =>
      have hl := h.length_le
      rw [length_bitString, length_bitString] at hl
      exact absurd hl (by simp)
    | cons b q =>
      rw [bitString_cons, bitString_cons] at h
      have hhead : natBits 8 a.toNat = natBits 8 b.toNat :=
        (List.prefix_of_prefix_length_le ((List.prefix_append _ _).trans h) (List.prefix_append _ _)
          (by simp)).eq_of_length (by simp)
      rw [hhead, List.prefix_append_right_inj] at h
      have hab : a = b := UInt8.toNat_inj.mp (natBits_inj a.toNat_lt b.toNat_lt hhead)
      exact List.cons_prefix_cons.mpr ⟨hab, ih h⟩

theorem eq_of_serializeAddr {a b : SockaddrU} (h : serializeAddr a <+: serializeAddr b) : a = b := by
  rw [serializeAddr, serializeAddr, List.append_assoc, List.append_assoc] at h
  have hf : a.family = b.family := by
    obtain ⟨t, ht⟩ := h
    have h0 := congrArg (fun l : Bytes => l[0]?) ht
    cases ha : a.family <;> cases hb : b.family <;> simp [ha, hb, familyBytes] at h0 <;> rfl
  rw [hf, List.prefix_append_right_inj] at h
  have hlen : (a.port ++ a.addr).length = (b.port ++ b.addr).length := by
    rw [List.length_append, List.length_append, a.port_size, b.port_size, a.addr_size, b.addr_size, hf]
  obtain ⟨hp, ha⟩ := List.append_inj (h.eq_of_length hlen) (by rw [a.port_size, b.port_size])
  exact SockaddrU.ext' hf ha hp

/-- **Keys of whole addresses tie only when the addresses are equal.** -/
theorem tie_fullKey {a b : SockaddrU} : Tie (fullKey a).bits (fullKey b).bits ↔ a = b := by
  rw [bits_fullKey, bits_fullKey]
  constructor
  · rintro (h | h)
    · exact eq_of_serializeAddr (prefix_of_bitString h)
    · exact (eq_of_serializeAddr (prefix_of_bitString h)).symm
  · rintro rfl
    exact .refl _

theorem fullKey_inj {a b : SockaddrU} (h : fullKey a = fullKey b) : a = b :=
  tie_fullKey.mp (h ▸ Tie.refl _)

/-! ### The cache as a map -/

section Map

variable {signed} {cache : Mphdr (ElemI Δ)}

/-- A pool that holds keys of whole addresses only. -/
structure Full (signed : Bool) (cache : Mphdr (ElemI Δ)) : Prop where
  wf : Wf (bitView signed) cache
  full : ∀ e ∈ cache.root.toList, ∃ a, e.toKey = fullKey a

/-- The record of an address. -/
def lookup (signed : Bool) (cache : Mphdr (ElemI Δ)) (a : SockaddrU) : Option (ElemI Δ) :=
  (memGet signed cache (fullKey a)).map Elem.extra

theorem Full.memGet_iff (h : Full signed cache) {a : SockaddrU} {e : Elem (ElemI Δ)} :
    memGet signed cache (fullKey a) = some e ↔ e ∈ cache.root.toList ∧ e.toKey = fullKey a := by
  constructor
  · intro hg
    obtain ⟨he, ht⟩ := memGet_eq_some h.wf (fits_fullKey a) hg
    obtain ⟨b, hb⟩ := h.full e he
    have hab : Tie (fullKey a).bits e.toKey.bits := ht
    rw [hb] at hab
    exact ⟨he, hb.trans (congrArg fullKey (tie_fullKey.mp hab)).symm⟩
  · rintro ⟨he, hk⟩
    exact hk ▸ h.wf.memGet_self he

/-- A pool with the same elements but for those of `a` has the same records elsewhere. -/
theorem Full.lookup_congr {cache' : Mphdr (ElemI Δ)} (h : Full signed cache) (h' : Full signed cache')
    {b : SockaddrU} (hm : ∀ e : Elem (ElemI Δ), e.toKey = fullKey b →
      (e ∈ cache'.root.toList ↔ e ∈ cache.root.toList)) : lookup signed cache' b = lookup signed cache b := by
  rw [lookup, lookup]
  congr 1
  apply Option.ext
  intro e
  rw [h'.memGet_iff, h.memGet_iff]
  exact ⟨fun ⟨he, hk⟩ => ⟨(hm e hk).mp he, hk⟩, fun ⟨he, hk⟩ => ⟨(hm e hk).mpr he, hk⟩⟩

theorem Full.memAdd (h : Full signed cache) (a : SockaddrU) {r : ElemI Δ} {cache' : Mphdr (ElemI Δ)}
    {v : Elem (ElemI Δ)} (ha : memAdd signed cache ⟨fullKey a, r⟩ = some (cache', v)) :
    Full signed cache' ∧ lookup signed cache' =
      Function.update (lookup signed cache) a (some ((lookup signed cache a).getD r)) := by
  have hw := (memAdd_spec h.wf (fits_fullKey a) ha).1
  cases hg : memGet signed cache (fullKey a) with
  | some w =>
    have hk := (h.memGet_iff.mp hg).2
    have hl : ¬(fullKey a).len < w.len := by rw [← hk]; exact Nat.lt_irrefl _
    obtain ⟨rfl, rfl⟩ := memAdd_of_some (e := ⟨fullKey a, r⟩) hg hl ha
    refine ⟨h, funext fun b => ?_⟩
    by_cases hb : b = a
    · rw [hb, Function.update_self, lookup, hg]
      rfl
    · rw [Function.update_of_ne hb]
  | none =>
    obtain ⟨rfl, hm⟩ := memAdd_of_none h.wf (e := ⟨fullKey a, r⟩) (fits_fullKey a) hg ha
    have hfull : Full signed cache' := ⟨hw, fun e he => ((hm e).mp he).elim (fun he => ⟨a, he ▸ rfl⟩) (h.full e)⟩
    refine ⟨hfull, funext fun b => ?_⟩
    by_cases hb : b = a
    · have hself : memGet signed cache' (fullKey a) = some ⟨fullKey a, r⟩ :=
        hfull.memGet_iff.mpr ⟨(hm _).mpr (.inl rfl), rfl⟩
      rw [hb, Function.update_self, lookup, hself, lookup, hg]
      rfl
    · rw [Function.update_of_ne hb]
      refine h.lookup_congr hfull fun e hk => ?_
      rw [hm e]
      refine or_iff_right fun he => hb (fullKey_inj ?_)
      rw [← hk, he]

theorem Full.memUpdate (h : Full signed cache) (a : SockaddrU) (f : ElemI Δ → ElemI Δ) :
    Full signed (memUpdate signed cache (fullKey a) f) ∧ lookup signed (memUpdate signed cache (fullKey a) f) =
      Function.update (lookup signed cache) a ((lookup signed cache a).map f) := by
  have hw := (h.wf.memUpdate (fullKey a) f).1
  cases hg : memGet signed cache (fullKey a) with
  | none =>
    have hsame : Mpool.memUpdate signed cache (fullKey a) f = cache := by
      rw [Mpool.memUpdate, BinTree.modify_of_find_none hg]
    rw [hsame, lookup, hg]
    refine ⟨h, funext fun b => ?_⟩
    by_cases hb : b = a
    · rw [hb, Function.update_self, lookup, hg]
      rfl
    · rw [Function.update_of_ne hb]
  | some e =>
    obtain ⟨l, r, hlr, hm⟩ := BinTree.toList_modify (f := fun e : Elem (ElemI Δ) => { e with extra := f e.extra }) hg
    have hk := (h.memGet_iff.mp hg).2
    have hlist : (Mpool.memUpdate signed cache (fullKey a) f).root.toList = l ++ { e with extra := f e.extra } :: r :=
      hm
    have hfull : Full signed (Mpool.memUpdate signed cache (fullKey a) f) := by
      refine ⟨hw, fun d hd => ?_⟩
      rw [hlist, List.mem_append, List.mem_cons] at hd
      rcases hd with hd | rfl | hd
      · exact h.full d (by rw [hlr]; exact List.mem_append.mpr (.inl hd))
      · exact ⟨a, hk⟩
      · exact h.full d (by rw [hlr]; exact List.mem_append.mpr (.inr (List.mem_cons_of_mem e hd)))
    refine ⟨hfull, funext fun b => ?_⟩
    by_cases hb : b = a
    · have hself : memGet signed (Mpool.memUpdate signed cache (fullKey a) f) (fullKey a) =
          some { e with extra := f e.extra } :=
        hfull.memGet_iff.mpr ⟨by rw [hlist]; exact List.mem_append.mpr (.inr List.mem_cons_self), hk⟩
      rw [hb, Function.update_self, lookup, hself, lookup, hg]
      rfl
    · rw [Function.update_of_ne hb]
      refine h.lookup_congr hfull fun d hd => ?_
      have hne : fullKey b ≠ fullKey a := fun heq => hb (fullKey_inj heq)
      rw [hlist, hlr]
      simp only [List.mem_append, List.mem_cons]
      have h₁ : d ≠ { e with extra := f e.extra } := fun he => hne (by rw [← hd, he]; exact hk)
      have h₂ : d ≠ e := fun he => hne (by rw [← hd, he]; exact hk)
      simp [h₁, h₂]

end Map

/-- A failure that is put down for an address. -/
structure Put (Δ : Type) where
  now : ℤ
  dst : SockaddrU
  host : Option Bytes
  /-- What the caller of `cache_add` writes. -/
  f : ElemI Δ → ElemI Δ

/-- The record of the address after it. -/
def Put.apply (m : SockaddrU → Option (ElemI Δ)) (p : Put Δ) : SockaddrU → Option (ElemI Δ) :=
  Function.update m p.dst (some (p.f (((m p.dst).getD (.zero Δ)).touch p.now p.host)))

/-- A run of `cache_add`; `none` where a walk leaves its arrays. -/
def putAll (signed : Bool) (cachePre : ℕ) (cache : Mphdr (ElemI Δ)) (ps : List (Put Δ)) : Option (Mphdr (ElemI Δ)) :=
  ps.foldlM (fun cache p => cacheAdd signed cachePre p.now cache p.dst p.host p.f) cache

variable {signed}

theorem Full.cacheAdd {cache cache' : Mphdr (ElemI Δ)} (h : Full signed cache) (p : Put Δ)
    (ha : cacheAdd signed 0 p.now cache p.dst p.host p.f = some cache') :
    Full signed cache' ∧ lookup signed cache' = p.apply (lookup signed cache) := by
  have hkey : (⟨cacheCmpLen signed 0 cache p.dst, serializeAddr p.dst⟩ : Key) = fullKey p.dst := by
    rw [cacheCmpLen, if_neg (by simp)]
    rfl
  rw [Mpool.cacheAdd] at ha
  simp only [hkey] at ha
  obtain ⟨⟨cache₁, v⟩, hm, rfl⟩ := Option.map_eq_some_iff.mp ha
  obtain ⟨h₁, hl₁⟩ := h.memAdd p.dst hm
  obtain ⟨h₂, hl₂⟩ := h₁.memUpdate p.dst fun r => p.f (r.touch p.now p.host)
  refine ⟨h₂, hl₂.trans ?_⟩
  rw [hl₁, Function.update_self, Function.update_idem]
  rfl

theorem Full.putAll (ps : List (Put Δ)) : ∀ {cache cache' : Mphdr (ElemI Δ)}, Full signed cache →
    putAll signed 0 cache ps = some cache' →
      Full signed cache' ∧ lookup signed cache' = ps.foldl Put.apply (lookup signed cache) := by
  induction ps with
  | nil =>
    intro cache cache' h hr
    obtain rfl := Option.some.inj hr
    exact ⟨h, rfl⟩
  | cons p ps ih =>
    intro cache cache' h hr
    rw [Mpool.putAll, List.foldlM_cons] at hr
    obtain ⟨cache₁, ha, hr⟩ := Option.bind_eq_some_iff.mp hr
    obtain ⟨h₁, hl₁⟩ := h.cacheAdd p ha
    rw [List.foldl_cons, ← hl₁]
    exact ih h₁ hr

/-- An IPv4 address with port 443. -/
def sampleAddr (d : UInt8) : SockaddrU := ⟨.AF_INET, [10, 0, 0, d], [1, 187], rfl, rfl⟩

/-- Two failures, at 10.0.0.1 and 10.0.0.2. -/
def samplePuts : List (Put Unit) :=
  [⟨100, sampleAddr 1, none, fun r => { r with dp := some () }⟩,
    ⟨200, sampleAddr 2, none, fun r => { r with dp := some () }⟩]

/-- A record with nothing in it but its time. -/
def sampleRecord (time : ℤ) : ElemI Unit := ⟨0, some (), 0, time, none⟩

/-- The cache after them. -/
def sampleCache : Mphdr (ElemI Unit) :=
  ⟨.CMP_BITS, 2, .node .nil ⟨fullKey (sampleAddr 1), sampleRecord 100⟩
    (.node .nil ⟨fullKey (sampleAddr 2), sampleRecord 200⟩ .nil)⟩

/-- **A look-up of an IPv4 address that finds a record too old deletes another one**: the length it passes counts
bytes, so that of the key only the first bits are compared, and those are the same for all IPv4 addresses.
Whenever the record at the root is one of an IPv4 address it is the one that goes, and the old record stays
unless it is there. -/
theorem cacheGet_expired {cache : Mphdr (ElemI Δ)} (h : Full signed cache) {l r : BinTree (Elem (ElemI Δ))}
    {top : Elem (ElemI Δ)} (hroot : cache.root = .node l top r) {a dst : SockaddrU} (htop : top.toKey = fullKey a)
    (ha : a.family = .AF_INET) (hdst : dst.family = .AF_INET) {old : Elem (ElemI Δ)}
    (hold : memGet signed cache (fullKey dst) = some old) {ttl : Δ → ℤ} {dp : Δ} (hdp : old.extra.dp = some dp)
    (httl : ttl dp ≠ 0) {now : ℤ} (hnow : now > old.extra.time + ttl dp) :
    ∃ cache', cacheGet signed ttl now cache dst = some (cache', none) ∧
      cache'.root.toList = l.toList ++ r.toList ∧ (top ≠ old → old ∈ cache'.root.toList) := by
  have hlen : (serializeAddr dst).length = 8 := by
    rw [serializeAddr, List.length_append, List.length_append, dst.port_size, dst.addr_size, hdst]
    rfl
  have hkey : (⟨8, serializeAddr dst⟩ : Key).FitsBits := by
    rw [Key.FitsBits]
    dsimp only
    omega
  -- the eight bits are the first byte of the family
  have hbits : ∀ b : SockaddrU, b.family = .AF_INET → (bitString (serializeAddr b)).take 8 = natBits 8 2 := by
    intro b hb
    rw [serializeAddr, hb]
    rfl
  have htie : Tie (⟨8, serializeAddr dst⟩ : Key).bits top.toKey.bits := by
    rw [htop, bits_fullKey, Key.bits, hbits dst hdst, ← hbits a ha]
    exact .inl (List.take_prefix _ _)
  have hmem : top ∈ cache.root.toList := by
    rw [hroot, BinTree.toList_node]
    exact List.mem_append.mpr (.inr List.mem_cons_self)
  have hside : side signed cache.cmpType ⟨8, serializeAddr dst⟩ top = .eq :=
    (h.wf.side_eq hkey hmem).trans (cmp_eq_iff.mpr htie)
  have hdel : memDelete signed cache ⟨8, serializeAddr dst⟩ =
      some { cache with root := BinTree.join l r, count := cache.count - 1 } := by
    rw [memDelete, kavlErase, hroot, BinTree.steps, BinTree.erase, BinTree.find, hside]
    rfl
  refine ⟨{ cache with root := BinTree.join l r, count := cache.count - 1 }, ?_, BinTree.toList_join l r, fun hne => ?_⟩
  · rw [fullKey] at hold
    rw [cacheGet]
    dsimp only
    rw [hold]
    dsimp only
    rw [hdp, Option.map_some, Option.getD_some, if_pos ⟨httl, hnow⟩, hlen, hdel]
    rfl
  · have hin := (h.memGet_iff.mp hold).1
    rw [hroot, BinTree.toList_node, List.mem_append, List.mem_cons] at hin
    rw [show (⟨cache.cmpType, cache.count - 1, BinTree.join l r⟩ : Mphdr (ElemI Δ)).root = BinTree.join l r from rfl,
      BinTree.toList_join, List.mem_append]
    rcases hin with hin | hin | hin
    · exact .inl hin
    · exact absurd hin.symm hne
    · exact .inr hin

/-- The record of 10.0.0.2 is too old, and that of 10.0.0.1 is deleted. -/
theorem cacheGet_expired_sample : ∃ cache',
    cacheGet false (fun _ => 50) 300 sampleCache (sampleAddr 2) = some (cache', none) ∧
      cache'.root.toList =
        BinTree.nil.toList ++ (BinTree.node .nil ⟨fullKey (sampleAddr 2), sampleRecord 200⟩ .nil).toList ∧
      ((⟨fullKey (sampleAddr 1), sampleRecord 100⟩ : Elem (ElemI Unit)) ≠
        ⟨fullKey (sampleAddr 2), sampleRecord 200⟩ →
          ⟨fullKey (sampleAddr 2), sampleRecord 200⟩ ∈ cache'.root.toList) := by
  have h₀ : Full false (memPool .CMP_BITS (ElemI Unit)) := ⟨Wf.memPool, by simp [memPool]⟩
  have hr : putAll false 0 (memPool .CMP_BITS (ElemI Unit)) samplePuts = some sampleCache := rfl
  have hold : memGet false sampleCache (fullKey (sampleAddr 2)) =
      some ⟨fullKey (sampleAddr 2), sampleRecord 200⟩ := rfl
  exact cacheGet_expired (h₀.putAll samplePuts hr).1 rfl rfl rfl rfl hold rfl (by decide) (by decide)

/-! ### Address sets -/

end BypassVpn.Ciadpi.Mpool
