import Mathlib.Tactic.IntervalCases
import Mathlib.Tactic.Set
import BypassVpn.Lib.Prefixes
import BypassVpn.Ciadpi.Params

/-!
# `mpool.c`: pools of addresses, hosts and byte strings

A pool is a search tree (`kavl.h`, which does not balance) under one of three comparisons. For two of
them a key ties with the keys it is a prefix of. Allocations succeed.

* `bitCmp`, `byteCmp`, `hostCmp`, `scmp`: the comparisons; `View`: a comparison is the order of blocks.
* `kavlInsert`, `kavlErase`, `memGet`, `memAdd`, `memDelete`; `none` is a write past the end of the
  arrays that hold a walk.
* `Wf`: the tree is sorted, and `count` is the number of its elements.
* **`memAdd_spec`**, **`memDelete_spec`**, `memGet_isSome_iff`: a pool is a set of blocks none of which
  lies in another.
* **`bitView`**, **`byteView`**: the comparisons that are an order.
-/

namespace BypassVpn.Ciadpi.Mpool

open SearchTree Prefixes

/-- `KAVL_MAX_DEPTH`: the length of the arrays of a walk. -/
def KAVL_MAX_DEPTH : ℕ := 64

/-- `enum` of the comparisons of a pool. -/
inductive CmpType where
  | CMP_BYTES
  | CMP_BITS
  | CMP_HOST
  deriving DecidableEq

/-- What a comparison reads of a `struct elem`; `len` counts bits under `CMP_BITS`, else bytes. -/
structure Key where
  len : ℕ
  data : Bytes
  deriving DecidableEq

/-- A `struct elem`; `extra` are the fields behind `main`. -/
structure Elem (ε : Type) extends Key where
  extra : ε

/-- `memcmp`, of which only the sign is used. -/
def memcmp : Bytes → Bytes → ℕ → Ordering
  | a :: p, b :: q, n + 1 => (compare a.toNat b.toNat).then (memcmp p q n)
  | _, _, _ => .eq

/-- The value of a `char`, whose signedness is the platform's. -/
def charVal (signed : Bool) (c : UInt8) : ℤ :=
  if signed = true ∧ 128 ≤ c.toNat then (c.toNat : ℤ) - 256 else c.toNat

/-- `(uint8_t)(c >> n)` for a `char`. -/
def charShift (signed : Bool) (c : UInt8) (n : ℕ) : ℤ := charVal signed c / (2 ^ n : ℕ) % 256

/-- `a < b ? -1 : 1` where they differ, else 0. -/
def sign (a b : ℤ) : Ordering := if a = b then .eq else if a < b then .lt else .gt

variable (signed : Bool)

/-- `bit_cmp`: by the bits that both keys have. -/
def bitCmp (p q : Key) : Ordering :=
  let len := if q.len < p.len then q.len else p.len
  let df := len % 8
  let bytes := len / 8
  let cmp := memcmp p.data q.data bytes
  if cmp ≠ .eq ∨ df = 0 then cmp
  else sign (charShift signed (p.data.getD bytes 0) (8 - df)) (charShift signed (q.data.getD bytes 0) (8 - df))

/-- `byte_cmp`: lengths first. -/
def byteCmp (p q : Key) : Ordering :=
  if p.len ≠ q.len then (if p.len < q.len then .lt else .gt) else memcmp p.data q.data p.len

/-- The loop of `host_cmp`, which runs from the ends, and the test of the byte in front of the part that
is common. -/
def hostLoop : Bytes → Bytes → Ordering
  | a :: p, b :: q => if a ≠ b then (if charVal signed a < charVal signed b then .lt else .gt) else hostLoop p q
  | [], [] => .eq
  | [], b :: _ => if b = 0x2e then .eq else .lt
  | a :: _, [] => if a = 0x2e then .eq else .gt

/-- `host_cmp`: from the ends of the names. -/
def hostCmp (p q : Key) : Ordering :=
  hostLoop signed (p.data.take p.len).reverse (q.data.take q.len).reverse

/-- The comparison of the first element's `cmp_type`, which is that of the pool. -/
def scmp : CmpType → Key → Key → Ordering
  | .CMP_BITS, p, q => bitCmp signed p q
  | .CMP_HOST, p, q => hostCmp signed p q
  | .CMP_BYTES, p, q => byteCmp p q

/-! ### `kavl.h` -/

section Pool

variable {ε : Type} (t : CmpType)

/-- The side of the elements of the tree on which `x` lies. -/
def side (x : Key) (e : Elem ε) : Ordering := scmp signed t x e.toKey

/-- The tree with `x` in it, or the element that ties; the walk writes `b[0]` to `b[steps]`. -/
def kavlInsert (root : BinTree (Elem ε)) (x : Elem ε) : Option (BinTree (Elem ε) × Option (Elem ε)) :=
  if KAVL_MAX_DEPTH ≤ root.steps (side signed t x.toKey) then none
  else some (root.insert (side signed t x.toKey) x, root.find (side signed t x.toKey))

/-- The walk writes `path[0]` to `path[steps - 1]`. -/
def kavlErase (root : BinTree (Elem ε)) (x : Key) : Option (BinTree (Elem ε) × Option (Elem ε)) :=
  if KAVL_MAX_DEPTH < root.steps (side signed t x) then none
  else some (root.erase (side signed t x), root.find (side signed t x))

/-- A `struct mphdr`. -/
structure Mphdr (ε : Type) where
  cmpType : CmpType
  count : ℕ
  root : BinTree (Elem ε)

/-- `mem_pool`: an empty pool. -/
def memPool (ε : Type) : Mphdr ε := ⟨t, 0, .nil⟩

/-- `mem_get`: an element that ties with `x`. -/
def memGet (hdr : Mphdr ε) (x : Key) : Option (Elem ε) := hdr.root.find (side signed hdr.cmpType x)

/-- `mem_delete`; `none` where the walk leaves its arrays. -/
def memDelete (hdr : Mphdr ε) (x : Key) : Option (Mphdr ε) :=
  (kavlErase signed hdr.cmpType hdr.root x).map fun
    | (_, none) => hdr
    | (root, some _) => { hdr with root := root, count := hdr.count - 1 }

/-- The loop of `mem_add`; every turn takes an element out. -/
def addLoop (e : Elem ε) : ℕ → Mphdr ε → Option (Mphdr ε × Elem ε)
  | 0, _ => none
  | n + 1, hdr =>
    (kavlInsert signed hdr.cmpType hdr.root e).bind fun
      | (root, none) => some ({ hdr with root := root, count := hdr.count + 1 }, e)
      | (_, some v) =>
        if e.len < v.len then (memDelete signed hdr v.toKey).bind (addLoop e n) else some (hdr, v)

/-- The pool and the element that it returns: `e`, or the element that holds it already. -/
def memAdd (hdr : Mphdr ε) (e : Elem ε) : Option (Mphdr ε × Elem ε) :=
  addLoop signed e (hdr.root.toList.length + 1) hdr

/-- What a caller writes through the pointer that `mem_get` or `mem_add` returned for `x`. -/
def memUpdate (hdr : Mphdr ε) (x : Key) (f : ε → ε) : Mphdr ε :=
  { hdr with root := hdr.root.modify (side signed hdr.cmpType x) fun e => { e with extra := f e.extra } }

end Pool

/-! ### A pool as a set of blocks -/

/-- On the valid keys the comparison is the order of blocks, and of two that tie the smaller block has the
greater length. -/
structure View (t : CmpType) (β : Type) [LinearOrder β] (Valid : Key → Prop) where
  block : Key → List β
  scmp_eq : ∀ p q, Valid p → Valid q → scmp signed t p q = Prefixes.cmp (block p) (block q)
  len_lt : ∀ p q, Valid p → Valid q → Tie (block p) (block q) →
    (p.len < q.len ↔ (block p).length < (block q).length)

variable {signed} {ε β : Type} [LinearOrder β] {t : CmpType} {Valid : Key → Prop}

section Spec

variable (V : View signed t β Valid)

/-- The order of the blocks, on elements. -/
def View.cmp (p q : Elem ε) : Ordering := Prefixes.cmp (V.block p.toKey) (V.block q.toKey)

theorem View.steers : Steers (V.cmp (ε := ε)) where
  swap _ _ := cmp_swap _ _
  trans h h' := cmp_trans h h'

/-- The blocks of a pool, in order. -/
def View.blocks (hdr : Mphdr ε) : List (List β) := hdr.root.toList.map fun e => V.block e.toKey

/-- The comparison is the pool's, the keys are valid, the tree is sorted and `count` counts it. -/
structure Wf (hdr : Mphdr ε) : Prop where
  cmpType : hdr.cmpType = t
  valid : ∀ e ∈ hdr.root.toList, Valid e.toKey
  sorted : hdr.root.Sorted V.cmp
  count : hdr.count = hdr.root.toList.length

variable {V} {hdr : Mphdr ε} {x : Key}

theorem Wf.memPool : Wf V (memPool t ε) := ⟨rfl, by simp [Mpool.memPool], .nil, rfl⟩

theorem Wf.side_eq (h : Wf V hdr) (hx : Valid x) {e : Elem ε} (he : e ∈ hdr.root.toList) :
    side signed hdr.cmpType x e = Prefixes.cmp (V.block x) (V.block e.toKey) := by
  rw [side, h.cmpType, V.scmp_eq _ _ hx (h.valid e he)]

theorem Wf.find_eq (h : Wf V hdr) (hx : Valid x) : hdr.root.find (side signed hdr.cmpType x) =
    hdr.root.find fun e => Prefixes.cmp (V.block x) (V.block e.toKey) :=
  BinTree.find_congr fun _ he => h.side_eq hx he

theorem View.cuts (V : View signed t β Valid) (x : Key) :
    SplitsAt (V.cmp (ε := ε)) fun e => Prefixes.cmp (V.block x) (V.block e.toKey) where
  lt hab hxa := cmp_trans hxa hab
  gt hab hxb := by
    rw [cmp_steers.gt_iff] at hxb ⊢
    exact cmp_trans hab hxb

theorem Wf.free (h : Wf V hdr) : Free (V.blocks hdr) := by
  rw [Free, View.blocks, List.pairwise_map]
  exact h.sorted.imp fun hab ht => by
    rw [View.cmp, cmp_eq_iff.mpr ht] at hab
    exact absurd hab (by simp)

/-- **A look-up succeeds whenever the block ties with one of the pool.** -/
theorem memGet_isSome_iff (h : Wf V hdr) (hx : Valid x) :
    (memGet signed hdr x).isSome = true ↔ ∃ k ∈ V.blocks hdr, Tie (V.block x) k := by
  rw [memGet, h.find_eq hx, BinTree.find_isSome_iff (V.cuts x) h.sorted]
  simp only [cmp_eq_iff, View.blocks, List.mem_map]
  exact ⟨fun ⟨e, he, ht⟩ => ⟨_, ⟨e, he, rfl⟩, ht⟩, fun ⟨_, ⟨e, he, rfl⟩, ht⟩ => ⟨e, he, ht⟩⟩

theorem memGet_eq_some (h : Wf V hdr) (hx : Valid x) {e : Elem ε} (he : memGet signed hdr x = some e) :
    e ∈ hdr.root.toList ∧ Tie (V.block x) (V.block e.toKey) := by
  rw [memGet, h.find_eq hx] at he
  exact ⟨(BinTree.find_eq_some he).1, cmp_eq_iff.mp (BinTree.find_eq_some he).2⟩

/-- **A deletion** takes out one element that ties with the key, and changes nothing where none does. -/
theorem memDelete_spec (h : Wf V hdr) {hdr' : Mphdr ε}
    (hd : memDelete signed hdr x = some hdr') :
    Wf V hdr' ∧ match memGet signed hdr x with
      | none => hdr' = hdr
      | some v => ∃ l r, hdr.root.toList = l ++ v :: r ∧ hdr'.root.toList = l ++ r := by
  obtain ⟨⟨root, r⟩, hk, hr⟩ := Option.map_eq_some_iff.mp hd
  rw [kavlErase] at hk
  split_ifs at hk
  rw [Option.some.injEq, Prod.mk.injEq] at hk
  obtain ⟨rfl, rfl⟩ := hk
  rw [memGet]
  cases hf : hdr.root.find (side signed hdr.cmpType x) with
  | none =>
    rw [hf] at hr
    subst hr
    exact ⟨h, rfl⟩
  | some v =>
    rw [hf] at hr
    subst hr
    obtain ⟨l, r, hlr, he⟩ := BinTree.toList_erase hf
    refine ⟨⟨h.cmpType, fun e he' => h.valid e ?_, h.sorted.erase _, ?_⟩, l, r, hlr, he⟩
    · rw [he] at he'
      rw [hlr]
      exact List.mem_append.mpr ((List.mem_append.mp he').imp_right (List.mem_cons_of_mem v))
    · show hdr.count - 1 = (hdr.root.erase _).toList.length
      rw [h.count, he, hlr]
      simp only [List.length_append, List.length_cons]
      omega

theorem Wf.memGet_self (h : Wf V hdr) {v : Elem ε} (hv : v ∈ hdr.root.toList) :
    memGet signed hdr v.toKey = some v := by
  rw [memGet, h.find_eq (h.valid v hv)]
  exact BinTree.find_self V.steers h.sorted hv (cmp_eq_iff.mpr (.refl _))

theorem addLoop_spec {e : Elem ε} (he : Valid e.toKey) (n : ℕ) : ∀ {hdr : Mphdr ε}, Wf V hdr →
    ∀ {hdr' : Mphdr ε} {v : Elem ε}, addLoop signed e n hdr = some (hdr', v) →
      Wf V hdr' ∧ (V.blocks hdr').Perm (add (V.blocks hdr) (V.block e.toKey)) ∧
      memGet signed hdr' e.toKey = some v ∧ (v = e ∨ v ∈ hdr.root.toList) ∧
      ∀ w ∈ hdr'.root.toList, w = v ∨ w ∈ hdr.root.toList := by
  induction n with
  | zero => exact fun _ _ _ ha => absurd ha (by simp [addLoop])
  | succ n ih =>
    intro hdr h hdr' v ha
    rw [addLoop] at ha
    obtain ⟨⟨root, o⟩, hk, hr⟩ := Option.bind_eq_some_iff.mp ha
    rw [kavlInsert] at hk
    split_ifs at hk
    rw [Option.some.injEq, Prod.mk.injEq] at hk
    obtain ⟨rfl, rfl⟩ := hk
    cases hf : hdr.root.find (side signed hdr.cmpType e.toKey) with
    | none =>
      -- no block ties: `e` goes to its place
      simp only [hf, Option.some.injEq, Prod.mk.injEq] at hr
      obtain ⟨rfl, rfl⟩ := hr
      have hc : ∀ b ∈ hdr.root.toList, side signed hdr.cmpType e.toKey b = V.cmp e b :=
        fun _ hb => h.side_eq he hb
      have hi : hdr.root.insert (side signed hdr.cmpType e.toKey) e = hdr.root.insert (V.cmp e) e :=
        BinTree.insert_congr hc
      have hf' : hdr.root.find (V.cmp e) = none := BinTree.find_congr hc ▸ hf
      obtain ⟨l, r, hlr, hl, -, -⟩ := BinTree.toList_insert (x := e) (V.steers.cuts e) h.sorted hf'
      have hmem : ∀ w, w ∈ (hdr.root.insert (V.cmp e) e).toList ↔ w = e ∨ w ∈ hdr.root.toList := by
        intro w
        rw [hl, hlr]
        simp only [List.mem_append, List.mem_cons]
        tauto
      have hw : Wf V { hdr with root := hdr.root.insert (V.cmp e) e, count := hdr.count + 1 } := by
        refine ⟨h.cmpType, fun w hw => ?_, h.sorted.insert V.steers, ?_⟩
        · rcases (hmem w).mp hw with rfl | hw
          · exact he
          · exact h.valid w hw
        · show hdr.count + 1 = (hdr.root.insert (V.cmp e) e).toList.length
          rw [hl, h.count, hlr]
          simp only [List.length_append, List.length_cons]
          omega
      rw [hi]
      refine ⟨hw, ?_, hw.memGet_self ((hmem e).mpr (.inl rfl)), .inl rfl, fun w hw' => (hmem w).mp hw'⟩
      rw [add_of_not_tie]
      · show ((hdr.root.insert (V.cmp e) e).toList.map _).Perm (_ :: hdr.root.toList.map _)
        rw [hl, hlr, List.map_append, List.map_append, List.map_cons]
        exact List.perm_middle
      · intro j hj ht
        obtain ⟨w, hw', rfl⟩ := List.mem_map.mp hj
        exact (BinTree.find_eq_none_iff (V.steers.cuts e) h.sorted).mp hf' w hw' (cmp_eq_iff.mpr ht)
    | some w =>
      obtain ⟨hw, ht⟩ := memGet_eq_some h he hf
      have hlen := V.len_lt _ _ he (h.valid w hw) ht
      simp only [hf] at hr
      by_cases hlt : e.len < w.len
      · -- the block of `w` lies in that of `e`: it is taken out, and the loop goes on
        rw [if_pos hlt] at hr
        obtain ⟨hdr₁, hd, hr⟩ := Option.bind_eq_some_iff.mp hr
        obtain ⟨h₁, hs⟩ := memDelete_spec h hd
        rw [h.memGet_self hw] at hs
        obtain ⟨l, r, hlr, hl⟩ := hs
        obtain ⟨hw', hp, hg, hv, hm⟩ := ih h₁ hr
        have hsub : ∀ u ∈ hdr₁.root.toList, u ∈ hdr.root.toList := fun u hu => by
          rw [hl] at hu
          rw [hlr]
          exact List.mem_append.mpr ((List.mem_append.mp hu).imp_right (List.mem_cons_of_mem w))
        refine ⟨hw', ?_, hg, hv.imp_right (hsub v), fun u hu => (hm u hu).imp_right (hsub u)⟩
        have hadd : add (V.blocks hdr) (V.block e.toKey) = add (V.blocks hdr₁) (V.block e.toKey) := by
          rw [View.blocks, View.blocks, hlr, hl, List.map_append, List.map_append, List.map_cons]
          refine add_drop ?_ (ht.prefix_of_le (hlen.mp hlt).le) (hlen.mp hlt)
          have hfree := h.free
          rwa [View.blocks, hlr, List.map_append, List.map_cons] at hfree
        rwa [hadd]
      · -- the block of `w` holds that of `e`
        rw [if_neg hlt, Option.some.injEq, Prod.mk.injEq] at hr
        obtain ⟨rfl, rfl⟩ := hr
        have hle : (V.block w.toKey).length ≤ (V.block e.toKey).length :=
          Nat.le_of_not_lt fun h' => hlt (hlen.mpr h')
        have hmem : V.block w.toKey ∈ V.blocks hdr := List.mem_map.mpr ⟨w, hw, rfl⟩
        refine ⟨h, ?_, hf, .inr hw, fun u hu => .inr hu⟩
        rw [add_of_within hmem (ht.symm.prefix_of_le hle)]

/-- **An addition adds a block**, takes out those that lie in it, and returns the element that now holds
the key. -/
theorem memAdd_spec (h : Wf V hdr) {e : Elem ε} (he : Valid e.toKey) {hdr' : Mphdr ε} {v : Elem ε}
    (ha : memAdd signed hdr e = some (hdr', v)) :
    Wf V hdr' ∧ (V.blocks hdr').Perm (add (V.blocks hdr) (V.block e.toKey)) ∧
      memGet signed hdr' e.toKey = some v ∧ (v = e ∨ v ∈ hdr.root.toList) ∧
      ∀ w ∈ hdr'.root.toList, w = v ∨ w ∈ hdr.root.toList :=
  addLoop_spec he _ h ha

/-- Where nothing ties, the element is added and nothing is taken out. -/
theorem memAdd_of_none (h : Wf V hdr) {e : Elem ε} (he : Valid e.toKey)
    (hf : memGet signed hdr e.toKey = none) {hdr' : Mphdr ε} {v : Elem ε}
    (ha : memAdd signed hdr e = some (hdr', v)) :
    v = e ∧ ∀ w, w ∈ hdr'.root.toList ↔ w = e ∨ w ∈ hdr.root.toList := by
  rw [memAdd, addLoop] at ha
  obtain ⟨⟨root, o⟩, hk, hr⟩ := Option.bind_eq_some_iff.mp ha
  rw [kavlInsert] at hk
  split_ifs at hk
  rw [Option.some.injEq, Prod.mk.injEq] at hk
  obtain ⟨rfl, rfl⟩ := hk
  rw [memGet] at hf
  simp only [hf, Option.some.injEq, Prod.mk.injEq] at hr
  obtain ⟨rfl, rfl⟩ := hr
  have hc : ∀ b ∈ hdr.root.toList, side signed hdr.cmpType e.toKey b = V.cmp e b :=
    fun _ hb => h.side_eq he hb
  obtain ⟨l, r, hlr, hl, -, -⟩ :=
    BinTree.toList_insert (x := e) (V.steers.cuts e) h.sorted (BinTree.find_congr hc ▸ hf)
  refine ⟨rfl, fun w => ?_⟩
  show w ∈ (hdr.root.insert (side signed hdr.cmpType e.toKey) e).toList ↔ _
  rw [BinTree.insert_congr hc, hl, hlr]
  simp only [List.mem_append, List.mem_cons]
  tauto

/-- Where an element ties that is not longer, the pool stays as it is. -/
theorem memAdd_of_some {e w : Elem ε} (hf : memGet signed hdr e.toKey = some w) (hl : ¬e.len < w.len)
    {hdr' : Mphdr ε} {v : Elem ε} (ha : memAdd signed hdr e = some (hdr', v)) : hdr' = hdr ∧ v = w := by
  rw [memAdd, addLoop] at ha
  obtain ⟨⟨root, o⟩, hk, hr⟩ := Option.bind_eq_some_iff.mp ha
  rw [kavlInsert] at hk
  split_ifs at hk
  rw [Option.some.injEq, Prod.mk.injEq] at hk
  obtain ⟨rfl, rfl⟩ := hk
  rw [memGet] at hf
  simp only [hf, if_neg hl, Option.some.injEq, Prod.mk.injEq] at hr
  exact ⟨hr.1.symm, hr.2.symm⟩

/-- A write through the pointer found changes neither the blocks nor the count. -/
theorem Wf.memUpdate (h : Wf V hdr) (x : Key) (f : ε → ε) : Wf V (memUpdate signed hdr x f) ∧
    V.blocks (memUpdate signed hdr x f) = V.blocks hdr := by
  have hk : (Mpool.memUpdate signed hdr x f).root.toList.map Elem.toKey = hdr.root.toList.map Elem.toKey := by
    rw [Mpool.memUpdate]
    cases hf : hdr.root.find (side signed hdr.cmpType x) with
    | none => rw [BinTree.modify_of_find_none hf]
    | some e =>
      obtain ⟨l, r, hlr, hm⟩ := BinTree.toList_modify (f := fun e => { e with extra := f e.extra }) hf
      rw [hm, hlr, List.map_append, List.map_append, List.map_cons, List.map_cons]
  refine ⟨⟨h.cmpType, fun e he => ?_, ?_, ?_⟩, ?_⟩
  · obtain ⟨e', he', heq⟩ := List.mem_map.mp (hk ▸ List.mem_map_of_mem (f := Elem.toKey) he)
    exact heq ▸ h.valid e' he'
  · have hs := h.sorted
    rw [BinTree.Sorted] at hs ⊢
    have hmap : ∀ l : List (Elem ε), l.Pairwise (fun a b => V.cmp a b = .lt) ↔
        (l.map Elem.toKey).Pairwise fun a b => Prefixes.cmp (V.block a) (V.block b) = .lt :=
      fun l => by
        rw [List.pairwise_map]
        rfl
    rwa [hmap, hk, ← hmap]
  · have hl := congrArg List.length hk
    rw [List.length_map, List.length_map] at hl
    rw [hl]
    exact h.count
  · have hb : ∀ hdr : Mphdr ε, V.blocks hdr = (hdr.root.toList.map Elem.toKey).map V.block := fun hdr => by
      rw [View.blocks, List.map_map]
      rfl
    rw [hb, hb, hk]

/-! ### The arrays of the walks -/

/-- The pools that ascending additions make: the walk to the right meets every element. -/
def Chain (hdr : Mphdr ε) : Prop := hdr.root.steps (fun _ => .gt) = hdr.root.toList.length

theorem Chain.memAdd (h : Wf V hdr) (hc : Chain hdr) {e : Elem ε} (he : Valid e.toKey)
    (hgt : ∀ w ∈ hdr.root.toList, V.cmp w e = .lt) :
    memAdd signed hdr e = if KAVL_MAX_DEPTH ≤ hdr.count then none
      else some ({ hdr with root := hdr.root.insert (V.cmp e) e, count := hdr.count + 1 }, e) := by
  have hside : ∀ w ∈ hdr.root.toList, side signed hdr.cmpType e.toKey w = .gt := fun w hw =>
    (h.side_eq he hw).trans (V.steers.gt_iff.mpr (hgt w hw))
  have hcmp : ∀ w ∈ hdr.root.toList, side signed hdr.cmpType e.toKey w = V.cmp e w := fun w hw =>
    h.side_eq he hw
  have hf : hdr.root.find (side signed hdr.cmpType e.toKey) = none := by
    cases hf : hdr.root.find (side signed hdr.cmpType e.toKey) with
    | none => rfl
    | some w => exact absurd (hside w (BinTree.find_eq_some hf).1) (by rw [(BinTree.find_eq_some hf).2]; simp)
  rw [Mpool.memAdd, addLoop, kavlInsert, BinTree.steps_of_chain hside hc, ← h.count]
  by_cases hn : KAVL_MAX_DEPTH ≤ hdr.count
  · rw [if_pos hn, if_pos hn]
    rfl
  · rw [if_neg hn, if_neg hn, Option.bind_some, hf, BinTree.insert_congr hcmp]

/-- The additions of a list of elements, in order. -/
def memAddAll (signed : Bool) (hdr : Mphdr ε) (es : List (Elem ε)) : Option (Mphdr ε) :=
  es.foldlM (fun hdr e => (memAdd signed hdr e).map Prod.fst) hdr

theorem memAddAll_cons (signed : Bool) (hdr : Mphdr ε) (e : Elem ε) (es : List (Elem ε)) :
    memAddAll signed hdr (e :: es) = (memAdd signed hdr e).bind fun p => memAddAll signed p.1 es := by
  rw [memAddAll, List.foldlM_cons]
  cases memAdd signed hdr e <;> rfl

theorem memAddAll_of_chain (es : List (Elem ε)) : ∀ {hdr : Mphdr ε}, Wf V hdr → Chain hdr →
    hdr.count ≤ KAVL_MAX_DEPTH → (∀ e ∈ es, Valid e.toKey) →
    (hdr.root.toList ++ es).Pairwise (fun a b => V.cmp a b = .lt) →
    ((memAddAll signed hdr es).isSome = true ↔ hdr.count + es.length ≤ KAVL_MAX_DEPTH) := by
  induction es with
  | nil => exact fun _ _ hn _ _ => iff_of_true rfl hn
  | cons e es ih =>
    intro hdr h hc hn hv hp
    have hgt : ∀ w ∈ hdr.root.toList, V.cmp w e = .lt := fun w hw =>
      (List.pairwise_append.mp hp).2.2 w hw e List.mem_cons_self
    have he : Valid e.toKey := hv e List.mem_cons_self
    rw [memAddAll_cons, hc.memAdd h he hgt, List.length_cons]
    by_cases hfull : KAVL_MAX_DEPTH ≤ hdr.count
    · rw [if_pos hfull]
      exact iff_of_false (by simp) (by omega)
    · have hgt' : ∀ w ∈ hdr.root.toList, V.cmp e w = .gt := fun w hw => V.steers.gt_iff.mpr (hgt w hw)
      obtain ⟨hs, hl⟩ := BinTree.steps_insert_chain (x := e) hgt'
      have ha := hc.memAdd h he hgt
      rw [if_neg hfull] at ha
      rw [if_neg hfull, Option.bind_some, ih (memAdd_spec h he ha).1 (by rw [Chain, hs, hl, hc]; simp)
        (show hdr.count + 1 ≤ KAVL_MAX_DEPTH by omega) (fun d hd => hv d (List.mem_cons_of_mem e hd))
        (by rw [hl, List.append_assoc]; exact hp)]
      show hdr.count + 1 + es.length ≤ _ ↔ _
      omega

end Spec

/-! ### `CMP_BITS` and `CMP_BYTES` -/

/-- The bits of a byte string, the highest of each byte first. -/
def bitString (data : Bytes) : List Bool := data.flatMap fun b => natBits 8 b.toNat

@[simp] theorem bitString_cons (b : UInt8) (data : Bytes) :
    bitString (b :: data) = natBits 8 b.toNat ++ bitString data := List.flatMap_cons

@[simp] theorem length_bitString (data : Bytes) : (bitString data).length = 8 * data.length := by
  induction data with
  | nil => rfl
  | cons b data ih =>
    rw [bitString_cons, List.length_append, length_natBits, ih, List.length_cons]
    omega

/-- The first `len` bits of the data. -/
def Key.bits (k : Key) : List Bool := (bitString k.data).take k.len

/-- The data holds all bits of the key. -/
def Key.FitsBits (k : Key) : Prop := k.len ≤ 8 * k.data.length

theorem Key.FitsBits.length_bits {k : Key} (h : k.FitsBits) : k.bits.length = k.len := by
  rw [Key.bits, List.length_take, length_bitString, Nat.min_eq_left h]

theorem take_bitString {data : Bytes} {n : ℕ} (h : n ≤ data.length) (k : ℕ) :
    (bitString data).take (8 * n + k) = bitString (data.take n) ++ (bitString (data.drop n)).take k := by
  have hl : (bitString (data.take n)).length = 8 * n := by
    rw [length_bitString, List.length_take, Nat.min_eq_left h]
  have hsplit : bitString data = bitString (data.take n) ++ bitString (data.drop n) := by
    rw [bitString, bitString, bitString, ← List.flatMap_append, List.take_append_drop]
  rw [hsplit, List.take_append, hl, Nat.add_sub_cancel_left, List.take_of_length_le (by omega)]

theorem memcmp_eq (n : ℕ) : ∀ {p q : Bytes}, n ≤ p.length → n ≤ q.length →
    memcmp p q n = Prefixes.cmp (bitString (p.take n)) (bitString (q.take n)) := by
  induction n with
  | zero => exact fun {p q} _ _ => by cases p <;> cases q <;> rfl
  | succ n ih =>
    intro p q hp hq
    cases p with
    | nil => exact absurd hp (by simp)
    | cons a p =>
      cases q with
      | nil => exact absurd hq (by simp)
      | cons b q =>
        rw [memcmp, List.take_succ_cons, List.take_succ_cons, bitString_cons, bitString_cons,
          cmp_append (by simp), cmp_natBits 8 _ _ a.toNat_lt b.toNat_lt,
          ih (Nat.le_of_succ_le_succ hp) (Nat.le_of_succ_le_succ hq)]

theorem sign_eq_compare {x y : ℤ} {a b : ℕ} (h : (x = y ↔ a = b) ∧ (x < y ↔ a < b)) :
    sign x y = compare a b := by
  rw [sign]
  rcases Nat.lt_trichotomy a b with hab | hab | hab
  · rw [compare_lt_iff_lt.mpr hab, if_neg (by omega), if_pos (h.2.mpr hab)]
  · rw [compare_eq_iff_eq.mpr hab, if_pos (h.1.mpr hab)]
  · rw [compare_gt_iff_gt.mpr hab, if_neg (by omega), if_neg (by omega)]

/-- **The signedness of `char` does not matter** to `bit_cmp`: a negative `char` brings ones in front of the
high bits of its byte, and its high bit is set. -/
theorem sign_charShift (a b : UInt8) {n : ℕ} (hn : n < 8) :
    sign (charShift signed a n) (charShift signed b n) = compare (a.toNat / 2 ^ n) (b.toNat / 2 ^ n) := by
  have ha : a.toNat < 256 := a.toNat_lt
  have hb : b.toNat < 256 := b.toNat_lt
  apply sign_eq_compare
  rw [charShift, charShift, charVal, charVal]
  generalize a.toNat = x at *
  generalize b.toNat = y at *
  cases signed with
  | false =>
    simp only [Bool.false_eq_true, false_and, if_false]
    interval_cases n <;> omega
  | true =>
    simp only [true_and]
    split_ifs <;> interval_cases n <;> omega

/-- **`bit_cmp` is the order of the blocks of bits.** -/
theorem bitCmp_eq {p q : Key} (hp : p.FitsBits) (hq : q.FitsBits) :
    bitCmp signed p q = Prefixes.cmp p.bits q.bits := by
  rw [Key.FitsBits] at hp hq
  have hlen : (if q.len < p.len then q.len else p.len) = min p.len q.len := by
    split_ifs <;> omega
  set len := min p.len q.len with hdef
  have hbits : Prefixes.cmp p.bits q.bits =
      Prefixes.cmp ((bitString p.data).take len) ((bitString q.data).take len) := by
    rw [← cmp_take p.bits q.bits (n := len), Key.bits, Key.bits, List.take_take, List.take_take,
      Nat.min_eq_left (by omega), Nat.min_eq_left (by omega)]
    rw [Key.bits, Key.bits, List.length_take, List.length_take, length_bitString, length_bitString]
    omega
  have hpb : len / 8 ≤ p.data.length := by omega
  have hqb : len / 8 ≤ q.data.length := by omega
  have htake : Prefixes.cmp p.bits q.bits = (memcmp p.data q.data (len / 8)).then
      (Prefixes.cmp ((bitString (p.data.drop (len / 8))).take (len % 8))
        ((bitString (q.data.drop (len / 8))).take (len % 8))) := by
    have hsplit : ∀ {d : Bytes}, len / 8 ≤ d.length → (bitString d).take len =
        bitString (d.take (len / 8)) ++ (bitString (d.drop (len / 8))).take (len % 8) := fun {d} hd => by
      rw [← take_bitString hd, Nat.div_add_mod]
    rw [hbits, hsplit hpb, hsplit hqb, cmp_append, memcmp_eq _ hpb hqb]
    rw [length_bitString, length_bitString, List.length_take, List.length_take]
    omega
  rw [bitCmp, hlen, htake]
  by_cases hdf : len % 8 = 0
  · rw [if_pos (.inr hdf), hdf, List.take_zero, List.take_zero, cmp_nil_left, Ordering.then_eq]
  · cases hm : memcmp p.data q.data (len / 8) with
    | lt => rfl
    | gt => rfl
    | eq =>
      -- the bits behind the last whole byte
      have hbyte : ∀ {d : Bytes}, len ≤ 8 * d.length →
          (bitString (d.drop (len / 8))).take (len % 8) =
            natBits (len % 8) ((d.getD (len / 8) 0).toNat / 2 ^ (8 - len % 8)) := fun {d} hd => by
        have hlt : len / 8 < d.length := by omega
        rw [List.drop_eq_getElem_cons hlt, bitString_cons, List.take_append_of_le_length (by simp; omega),
          ← take_natBits, show len % 8 + (8 - len % 8) = 8 by omega, List.getD_eq_getElem?_getD,
          List.getElem?_eq_getElem hlt, Option.getD_some]
      have hhigh (u : UInt8) : u.toNat / 2 ^ (8 - len % 8) < 2 ^ (len % 8) := by
        refine Nat.div_lt_of_lt_mul ?_
        rw [← Nat.pow_add, show 8 - len % 8 + len % 8 = 8 by omega]
        exact UInt8.toNat_lt _
      rw [if_neg (by simp [hdf]), sign_charShift _ _ (by omega), hbyte (by omega), hbyte (by omega), cmp_natBits]
      · rfl
      · exact hhigh _
      · exact hhigh _

/-- Keys of bits: the length of a block is the length of its key. -/
def bitView (signed : Bool) : View signed .CMP_BITS Bool Key.FitsBits where
  block := Key.bits
  scmp_eq _ _ hp hq := bitCmp_eq hp hq
  len_lt p q hp hq _ := by rw [hp.length_bits, hq.length_bits]

/-- The data are as long as the key says. -/
def Key.FitsBytes (k : Key) : Prop := k.len ≤ k.data.length

theorem memcmp_eq_cmp (n : ℕ) : ∀ {p q : Bytes}, n ≤ p.length → n ≤ q.length →
    memcmp p q n = Prefixes.cmp ((p.take n).map UInt8.toNat) ((q.take n).map UInt8.toNat) := by
  induction n with
  | zero => exact fun {p q} _ _ => by cases p <;> cases q <;> rfl
  | succ n ih =>
    intro p q hp hq
    cases p with
    | nil => exact absurd hp (by simp)
    | cons a p =>
      cases q with
      | nil => exact absurd hq (by simp)
      | cons b q =>
        rw [memcmp, ih (Nat.le_of_succ_le_succ hp) (Nat.le_of_succ_le_succ hq)]
        rfl

/-- Keys of bytes: the length stands in front, so that keys tie only when they are equal. -/
def byteView (signed : Bool) : View signed .CMP_BYTES ℕ Key.FitsBytes where
  block k := k.len :: (k.data.take k.len).map UInt8.toNat
  scmp_eq p q hp hq := by
    rw [scmp, byteCmp, Prefixes.cmp]
    rcases Nat.lt_trichotomy p.len q.len with h | h | h
    · rw [if_pos (by omega), if_pos h, compare_lt_iff_lt.mpr h]
      rfl
    · rw [if_neg (by omega), memcmp_eq_cmp p.len hp (h ▸ hq), compare_eq_iff_eq.mpr h, h]
      rfl
    · rw [if_pos (by omega), if_neg (by omega), compare_gt_iff_gt.mpr h]
      rfl
  len_lt p q hp hq ht := by
    have hlen := (tie_cons.mp ht).1
    rw [Key.FitsBytes] at hp hq
    simp only [List.length_cons, List.length_map, List.length_take]
    omega

/-! ### Runs -/

/-- The calls that change a pool, and what is written through a pointer that a call returned. -/
inductive Call (ε : Type) where
  | memAdd (e : Elem ε)
  | memDelete (x : Key)
  | write (x : Key) (f : ε → ε)

/-- The key that is passed. -/
def Call.key : Call ε → Key
  | .memAdd e => e.toKey
  | .memDelete x => x
  | .write x _ => x

/-- One call on a pool; `none` where a walk leaves its arrays. -/
def Call.apply (signed : Bool) (hdr : Mphdr ε) : Call ε → Option (Mphdr ε)
  | .memAdd e => (Mpool.memAdd signed hdr e).map Prod.fst
  | .memDelete x => Mpool.memDelete signed hdr x
  | .write x f => some (memUpdate signed hdr x f)

/-- A run of calls. -/
def run (signed : Bool) (hdr : Mphdr ε) (calls : List (Call ε)) : Option (Mphdr ε) :=
  calls.foldlM (Call.apply signed) hdr

/-- What a call does to a set of blocks; a deletion takes out some block that ties. -/
inductive Call.Effect (block : Key → List β) : Call ε → List (List β) → List (List β) → Prop
  | add (e : Elem ε) (S : List (List β)) : Effect block (.memAdd e) S (add S (block e.toKey))
  | delete (x : Key) {S : List (List β)} {j : List β} (hj : j ∈ S) (ht : Tie (block x) j) :
    Effect block (.memDelete x) S (S.erase j)
  | absent (x : Key) {S : List (List β)} (h : ∀ j ∈ S, ¬Tie (block x) j) : Effect block (.memDelete x) S S
  | write (x : Key) (f : ε → ε) (S : List (List β)) : Effect block (.write x f) S S

/-- What a list of calls does. -/
inductive Effects (block : Key → List β) : List (Call ε) → List (List β) → List (List β) → Prop
  | nil (S : List (List β)) : Effects block [] S S
  | cons {c : Call ε} {cs : List (Call ε)} {S S' S'' : List (List β)} (h : c.Effect block S S')
    (hs : Effects block cs S' S'') : Effects block (c :: cs) S S''

section Run

variable {V : View signed t β Valid} {hdr hdr' : Mphdr ε}

theorem Wf.apply (h : Wf V hdr) {c : Call ε} (hv : Valid c.key) (ha : c.apply signed hdr = some hdr')
    {S : List (List β)} (hp : (V.blocks hdr).Perm S) :
    Wf V hdr' ∧ ∃ S', c.Effect V.block S S' ∧ (V.blocks hdr').Perm S' := by
  cases c with
  | memAdd e =>
    obtain ⟨⟨hdr₁, v⟩, hm, rfl⟩ := Option.map_eq_some_iff.mp ha
    obtain ⟨hw, hb, -⟩ := memAdd_spec h hv hm
    exact ⟨hw, _, .add e S, hb.trans (add_perm hp _)⟩
  | memDelete x =>
    obtain ⟨hw, hs⟩ := memDelete_spec h ha
    refine ⟨hw, ?_⟩
    cases hg : memGet signed hdr x with
    | none =>
      rw [hg] at hs
      subst hs
      refine ⟨S, .absent x fun j hj ht => ?_, hp⟩
      have hsome : (memGet signed hdr' x).isSome = true := (memGet_isSome_iff h hv).mpr ⟨j, hp.mem_iff.mpr hj, ht⟩
      rw [hg] at hsome
      exact absurd hsome (by simp)
    | some v =>
      rw [hg] at hs
      obtain ⟨l, r, hlr, hl⟩ := hs
      obtain ⟨hm, ht⟩ := memGet_eq_some h hv hg
      have hmem : V.block v.toKey ∈ V.blocks hdr := List.mem_map.mpr ⟨v, hm, rfl⟩
      refine ⟨_, .delete x (hp.mem_iff.mp hmem) ht, ?_⟩
      refine List.Perm.trans ?_ (hp.erase _)
      rw [View.blocks, View.blocks, hlr, hl, List.map_append, List.map_append, List.map_cons]
      exact (((List.perm_middle).erase _).trans (by rw [List.erase_cons_head])).symm
  | write x f =>
    obtain rfl := Option.some.inj ha
    obtain ⟨hw, hb⟩ := h.memUpdate x f
    exact ⟨hw, S, .write x f S, hb ▸ hp⟩

/-- **A run of calls** does to the pool what it does to the set of its blocks. -/
theorem Wf.run (cs : List (Call ε)) : ∀ {hdr : Mphdr ε}, Wf V hdr → (∀ c ∈ cs, Valid c.key) →
    Mpool.run signed hdr cs = some hdr' → ∀ {S : List (List β)}, (V.blocks hdr).Perm S →
      Wf V hdr' ∧ ∃ S', Effects V.block cs S S' ∧ (V.blocks hdr').Perm S' := by
  induction cs with
  | nil =>
    intro hdr h _ hr S hp
    obtain rfl := Option.some.inj hr
    exact ⟨h, S, .nil S, hp⟩
  | cons c cs ih =>
    intro hdr h hv hr S hp
    rw [Mpool.run, List.foldlM_cons] at hr
    obtain ⟨hdr₁, ha, hr⟩ := Option.bind_eq_some_iff.mp hr
    obtain ⟨h₁, S₁, he, hp₁⟩ := h.apply (hv c List.mem_cons_self) ha hp
    obtain ⟨hw, S', hs, hp'⟩ := ih h₁ (fun d hd => hv d (List.mem_cons_of_mem c hd)) hr hp₁
    exact ⟨hw, S', .cons he hs, hp'⟩

end Run

/-- **A pool under `CMP_BITS` is a set of address blocks.** Whatever calls are made on a new pool, as long as
none leaves the arrays of a walk: the keys in the pool are the blocks that the calls leave in a set where an
added block takes the place of those inside it; none lies in another, `count` is their number, and a look-up
succeeds just when its bits tie with a block. -/
theorem bits_run {cs : List (Call ε)} (hv : ∀ c ∈ cs, c.key.FitsBits) {hdr : Mphdr ε}
    (hr : run signed (memPool .CMP_BITS ε) cs = some hdr) :
    ∃ S, Effects Key.bits cs [] S ∧ ((hdr.root.toList.map fun e => e.toKey.bits).Perm S ∧ Free S ∧
      hdr.count = S.length ∧
      ∀ x : Key, x.FitsBits → ((memGet signed hdr x).isSome = true ↔ ∃ k ∈ S, Tie x.bits k)) := by
  have h₀ : Wf (bitView signed) (memPool .CMP_BITS ε) := Wf.memPool
  obtain ⟨hw, S, he, hp⟩ := h₀.run cs hv hr (List.Perm.refl [])
  refine ⟨S, he, hp, hw.free.perm hp, ?_, fun x hx => ?_⟩
  · rw [hw.count, ← hp.length_eq, View.blocks, List.length_map]
  · rw [memGet_isSome_iff hw hx]
    simp only [hp.mem_iff]
    rfl

/-- A block takes the place of one inside it and holds another one. -/
theorem bits_run_sample : ∃ S, Effects Key.bits
    [.memAdd (⟨⟨16, [10, 1]⟩, ()⟩ : Elem Unit), .memAdd ⟨⟨8, [10]⟩, ()⟩, .memAdd ⟨⟨16, [10, 2]⟩, ()⟩] [] S ∧
    (([(⟨⟨8, [10]⟩, ()⟩ : Elem Unit)].map fun e => e.toKey.bits).Perm S ∧ Free S ∧ 1 = S.length ∧
      ∀ x : Key, x.FitsBits →
        ((memGet false ⟨.CMP_BITS, 1, .node .nil (⟨⟨8, [10]⟩, ()⟩ : Elem Unit) .nil⟩ x).isSome = true ↔
          ∃ k ∈ S, Tie x.bits k)) := by
  have hr : run false (memPool .CMP_BITS Unit)
      [.memAdd ⟨⟨16, [10, 1]⟩, ()⟩, .memAdd ⟨⟨8, [10]⟩, ()⟩, .memAdd ⟨⟨16, [10, 2]⟩, ()⟩] =
        some ⟨.CMP_BITS, 1, .node .nil ⟨⟨8, [10]⟩, ()⟩ .nil⟩ := rfl
  refine bits_run (fun c hc => ?_) hr
  simp only [List.mem_cons, List.not_mem_nil, or_false] at hc
  rcases hc with rfl | rfl | rfl <;> simp [Call.key, Key.FitsBits]

/-- **Ascending keys overrun the arrays with the 65th**, for the tree is not balanced: the additions of a
list of keys, each of which lies behind the ones before it, all stay inside the arrays of the walk just when
there are at most 64. -/
theorem bits_ascending {es : List (Elem ε)} (hv : ∀ e ∈ es, e.toKey.FitsBits)
    (hp : es.Pairwise fun a b => bitCmp signed a.toKey b.toKey = .lt) :
    (memAddAll signed (memPool .CMP_BITS ε) es).isSome = true ↔ es.length ≤ KAVL_MAX_DEPTH := by
  have h₀ : Wf (bitView signed) (memPool .CMP_BITS ε) := Wf.memPool
  have hp' : es.Pairwise fun a b => (bitView signed).cmp a b = .lt :=
    hp.imp_of_mem fun ha hb hab => by rwa [bitCmp_eq (hv _ ha) (hv _ hb)] at hab
  rw [memAddAll_of_chain es h₀ rfl (Nat.zero_le _) hv hp']
  show 0 + es.length ≤ _ ↔ _
  rw [Nat.zero_add]

/-- The prefixes of one octet up to `n`, in ascending order. -/
def octets (n : ℕ) : List (Elem Unit) := (List.range n).map fun i => ⟨⟨8, [i.toUInt8]⟩, ()⟩

theorem octets_fit (n : ℕ) : ∀ e ∈ octets n, e.toKey.FitsBits := by
  simp [octets, Key.FitsBits]

/-- Sixty-four prefixes can be added in ascending order, a sixty-fifth writes behind the arrays. -/
theorem bits_ascending_threshold :
    (memAddAll false (memPool .CMP_BITS Unit) (octets 64)).isSome = true ∧
      (memAddAll false (memPool .CMP_BITS Unit) (octets 65)).isSome = false := by
  have hall : (octets 65).Pairwise fun a b => bitCmp false a.toKey b.toKey = .lt := by decide +kernel
  have hfits : (octets 64).Sublist (octets 65) := (List.range_sublist.mpr (by decide)).map _
  refine ⟨(bits_ascending (octets_fit 64) (hall.sublist hfits)).mpr (by decide), ?_⟩
  rw [Bool.eq_false_iff, ne_eq, bits_ascending (octets_fit 65) hall]
  decide

end BypassVpn.Ciadpi.Mpool
