import Mathlib.Tactic.SplitIfs
import BypassVpn.Lib.Region
import BypassVpn.Ciadpi.Params

/-!
# Socket addresses and their SOCKS5 form (`proxy.c`)

* `SockaddrU`: an address whose bytes fit its family; `mapFix`: IPv4 addresses inside IPv6.
* `s5GetAddr`, `s5SetAddr`: the address of a SOCKS5 message, read and written; `s5Form`, its bytes.
* **`s5GetAddr_s5Form`**: what is written is read; **`s5GetAddr_cut`**: what was cut short is refused;
  `s5SetAddr_eq`: where it is written.
* **`mapFix_mapFix`**: an address mapped into IPv6 comes back.
-/

namespace BypassVpn.Ciadpi

open Region

/-- `sa_family`. -/
inductive Family where
  | AF_INET
  | AF_INET6
  deriving DecidableEq, Repr

/-- The bytes of an address of the family. -/
def Family.size : Family → ℕ
  | .AF_INET => 4
  | .AF_INET6 => 16

/-- `union sockaddr_u`; address and port in network order. -/
structure SockaddrU where
  family : Family
  addr : Bytes
  port : Bytes
  addr_size : addr.length = family.size
  port_size : port.length = 2
  deriving DecidableEq

theorem SockaddrU.ext' {a b : SockaddrU} (hf : a.family = b.family) (ha : a.addr = b.addr)
    (hp : a.port = b.port) : a = b := by
  cases a
  cases b
  dsimp only at hf ha hp
  subst hf ha hp
  rfl

/-- The bytes in front of an IPv4 address inside IPv6. -/
def mappedHead : Bytes := [0, 0, 0, 0, 0, 0, 0, 0, 0, 0, 0xff, 0xff]

/-- `map_fix`; an IPv4 address is left alone where it is not to be mapped. -/
def mapFix (a : SockaddrU) (f6 : Bool) : SockaddrU :=
  if h : a.family = .AF_INET ∧ f6 = true then
    ⟨.AF_INET6, mappedHead ++ a.addr, a.port, by
      rw [List.length_append, a.addr_size, h.1]
      rfl, a.port_size⟩
  else if h : a.family = .AF_INET6 ∧ a.addr.take 12 = mappedHead ∧ f6 = false then
    ⟨.AF_INET, a.addr.drop 12, a.port, by
      rw [List.length_drop, a.addr_size, h.1]
      rfl, a.port_size⟩
  else a

@[simp] theorem port_mapFix (a : SockaddrU) (f6 : Bool) : (mapFix a f6).port = a.port := by
  rw [mapFix]
  split_ifs <;> rfl

/-- For an outgoing socket every address is an IPv6 address. -/
theorem family_mapFix_true (a : SockaddrU) : (mapFix a true).family = .AF_INET6 := by
  cases h : a.family with
  | AF_INET => rw [mapFix, dif_pos ⟨h, rfl⟩]
  | AF_INET6 => rw [mapFix, dif_neg (by simp [h]), dif_neg (by simp), h]

theorem addr_mapFix_true {a : SockaddrU} (h : a.family = .AF_INET) :
    (mapFix a true).addr = mappedHead ++ a.addr := by
  rw [mapFix, dif_pos ⟨h, rfl⟩]

/-- **An address that was mapped into IPv6 comes back**: as it was, or as it would without. -/
theorem mapFix_mapFix (a : SockaddrU) : mapFix (mapFix a true) false = mapFix a false := by
  cases h : a.family with
  | AF_INET6 =>
    have hm : mapFix a true = a := by rw [mapFix, dif_neg (by simp [h]), dif_neg (by simp)]
    rw [hm]
  | AF_INET =>
    have hf := family_mapFix_true a
    have ha := addr_mapFix_true h
    have hp := port_mapFix a true
    have hs : mapFix a false = a := by rw [mapFix, dif_neg (by simp), dif_neg (by simp [h])]
    rw [hs]
    generalize mapFix a true = m at *
    have hcond : m.family = .AF_INET6 ∧ m.addr.take 12 = mappedHead ∧ false = false :=
      ⟨hf, by rw [ha]; exact List.take_left' rfl, rfl⟩
    rw [mapFix, dif_neg (by simp), dif_pos hcond]
    have hd : m.addr.drop 12 = a.addr := (congrArg (List.drop 12) ha).trans (List.drop_left' rfl)
    exact SockaddrU.ext' h.symm hd hp

/-! ### SOCKS5 addresses -/

def S_ATP_I4 : UInt8 := 0x01
def S_ATP_ID : UInt8 := 0x03
def S_ATP_I6 : UInt8 := 0x04

def S_ER_OK : ℕ := 0x00
def S_ER_GEN : ℕ := 0x01
def S_ER_NET : ℕ := 0x03
def S_ER_HOST : ℕ := 0x04
def S_ER_CONN : ℕ := 0x05
def S_ER_CMD : ℕ := 0x07
def S_ER_ATP : ℕ := 0x08

def S_SIZE_I4 : ℕ := 4 + 4 + 2
def S_SIZE_I6 : ℕ := 4 + 16 + 2
def S_SIZE_ID : ℕ := 4 + 1 + 2
def S_SIZE_MIN : ℕ := S_SIZE_I4

/-- The address type of the family. -/
def Family.atp : Family → UInt8
  | .AF_INET => S_ATP_I4
  | .AF_INET6 => S_ATP_I6

/-- The size of a message with an address of the family. -/
def Family.s5Size : Family → ℕ
  | .AF_INET => S_SIZE_I4
  | .AF_INET6 => S_SIZE_I6

theorem Family.s5Size_eq (f : Family) : f.s5Size = 6 + f.size := by
  cases f <;> rfl

/-- The parameters that the parsing of an address reads, and `getaddrinfo` on a host. -/
structure AddrParams where
  resolve : Bool
  ipv6 : Bool
  getaddrinfo : Bytes → Option SockaddrU

/-- What `s5_get_addr` leaves: the size of the message with the address, a negative code, or neither,
where it reads in front of the buffer. -/
inductive S5Addr where
  | ok (o : ℕ) (addr : SockaddrU)
  | error (code : ℕ)
  | outside
  deriving DecidableEq

/-- The result of a parse that has an offset, if it has an address too. -/
def S5Addr.ofOption (o : ℕ) : Option SockaddrU → S5Addr
  | none => .outside
  | some a => .ok o a

/-- An address at `i` and a port at `j`. -/
def readAddr (f : Family) (buffer : Bytes) (i j : ℕ) : Option SockaddrU :=
  if h : i + f.size ≤ buffer.length ∧ j + 2 ≤ buffer.length then
    some ⟨f, slice buffer i f.size, slice buffer j 2, length_slice h.1, length_slice h.2⟩
  else none

/-- `a` with the port at `j`. -/
def readPort (a : SockaddrU) (buffer : Bytes) (j : ℕ) : Option SockaddrU :=
  if h : j + 2 ≤ buffer.length then some ⟨a.family, a.addr, slice buffer j 2, a.addr_size, length_slice h⟩
  else none

/-- `s5_get_addr`: the address behind the four octets of a SOCKS 5 header. -/
def s5GetAddr (params : AddrParams) (buffer : Bytes) : S5Addr :=
  if buffer.length < S_SIZE_MIN then .error S_ER_GEN
  else
    let atp := buffer.getD 3 0
    let idLen := (buffer.getD 4 0).toNat
    let o := if atp = S_ATP_I4 then S_SIZE_I4
      else if atp = S_ATP_ID then idLen + S_SIZE_ID
      else if atp = S_ATP_I6 then S_SIZE_I6 else 0
    if buffer.length < o then .error S_ER_GEN
    else if atp = S_ATP_I4 then .ofOption o (readAddr .AF_INET buffer 4 (o - 2))
    else if atp = S_ATP_ID then
      if params.resolve = false then .error S_ER_ATP
      else if idLen < 3 then .error S_ER_HOST
      else
        match params.getaddrinfo (slice buffer 5 idLen) with
        | none => .error S_ER_HOST
        | some a => .ofOption o (readPort a buffer (o - 2))
    else if atp = S_ATP_I6 then
      if params.ipv6 = false then .error S_ER_ATP else .ofOption o (readAddr .AF_INET6 buffer 4 (o - 2))
    -- no case of the `switch`: the port is read from `buffer[-2]`
    else .outside

/-- The bytes of an address in a message: type, address, port. -/
def s5Form (a : SockaddrU) : Bytes := a.family.atp :: (a.addr ++ a.port)

/-- `s5_set_addr` on the memory `mem` with `buffer` at `pos`; `end` is `atEnd`. -/
def s5SetAddr (mem : Bytes) (pos n : ℕ) (a : SockaddrU) (atEnd : Bool) : Option (Bytes × ℕ) :=
  if n < S_SIZE_I4 then none
  else
    match a.family with
    | .AF_INET =>
      let r := if atEnd then pos - S_SIZE_I4 else pos
      some (patch mem (r + 3) (S_ATP_I4 :: (a.addr ++ a.port)), S_SIZE_I4)
    | .AF_INET6 =>
      if n < S_SIZE_I6 then none
      else
        let r := if atEnd then pos - S_SIZE_I6 else pos
        some (patch mem (r + 3) (S_ATP_I6 :: (a.addr ++ a.port)), S_SIZE_I6)

@[simp] theorem length_s5Form (a : SockaddrU) : (s5Form a).length = a.family.s5Size - 3 := by
  rw [s5Form, List.length_cons, List.length_append, a.addr_size, a.port_size, Family.s5Size_eq]
  omega

theorem s5SetAddr_eq (mem : Bytes) (pos : ℕ) {n : ℕ} (a : SockaddrU) (atEnd : Bool) (hn : a.family.s5Size ≤ n) :
    s5SetAddr mem pos n a atEnd = some (patch mem ((if atEnd then pos - a.family.s5Size else pos) + 3) (s5Form a),
      a.family.s5Size) := by
  have hmin : ¬n < S_SIZE_I4 := by
    rw [Family.s5Size_eq] at hn
    rw [S_SIZE_I4]
    cases hf : a.family <;> simp only [hf, Family.size] at hn <;> omega
  rw [s5SetAddr, if_neg hmin, s5Form]
  cases hf : a.family with
  | AF_INET => rfl
  | AF_INET6 =>
    rw [hf] at hn
    have hn : ¬n < S_SIZE_I6 := Nat.not_lt.mpr hn
    dsimp only
    rw [if_neg hn]
    rfl

theorem readAddr_append (head tail : Bytes) (a : SockaddrU) :
    readAddr a.family (head ++ (a.addr ++ a.port) ++ tail) head.length (head.length + a.family.size) = some a := by
  have h₁ : slice (head ++ (a.addr ++ a.port) ++ tail) head.length a.family.size = a.addr := by
    rw [slice, List.append_assoc, List.drop_left, List.append_assoc, ← a.addr_size, List.take_left]
  have h₂ : slice (head ++ (a.addr ++ a.port) ++ tail) (head.length + a.family.size) 2 = a.port := by
    rw [slice, ← List.drop_drop, List.append_assoc, List.drop_left, List.append_assoc, ← a.addr_size, List.drop_left,
      ← a.port_size, List.take_left]
  rw [readAddr, dif_pos (by simp only [List.length_append, a.addr_size, a.port_size]; omega)]
  exact congrArg some (SockaddrU.ext' rfl h₁ h₂)

/-- **An address that was written is read back**, whatever stands in front of it and behind it. -/
theorem s5GetAddr_s5Form (params : AddrParams) {head : Bytes} (hh : head.length = 3) (a : SockaddrU)
    (h6 : a.family = .AF_INET6 → params.ipv6 = true) (tail : Bytes) :
    s5GetAddr params (head ++ s5Form a ++ tail) = .ok a.family.s5Size a := by
  have hlen : (head ++ s5Form a ++ tail).length = a.family.s5Size + tail.length := by
    rw [List.length_append, List.length_append, hh, length_s5Form, Family.s5Size_eq]
    omega
  have hatp : (head ++ s5Form a ++ tail).getD 3 0 = a.family.atp := by
    rw [s5Form, List.append_assoc, List.getD_eq_getElem?_getD, List.getElem?_append_right (by omega), hh]
    rfl
  have hread := readAddr_append (head ++ [a.family.atp]) tail a
  rw [List.append_assoc head, List.singleton_append, ← s5Form, List.length_append, hh] at hread
  have hmin : ¬(head ++ s5Form a ++ tail).length < S_SIZE_MIN := by
    rw [hlen, Family.s5Size_eq, S_SIZE_MIN, S_SIZE_I4]
    cases a.family <;> simp only [Family.size] <;> omega
  have hfit : ¬(head ++ s5Form a ++ tail).length < a.family.s5Size := by omega
  rw [s5GetAddr, if_neg hmin]
  simp only [hatp]
  generalize hf : a.family = f at *
  cases f with
  | AF_INET =>
    have hfit : ¬(head ++ s5Form a ++ tail).length < S_SIZE_I4 := hfit
    rw [show Family.atp .AF_INET = S_ATP_I4 from rfl, if_pos rfl, if_pos rfl, if_neg hfit]
    exact congrArg (S5Addr.ofOption _) hread
  | AF_INET6 =>
    have hfit : ¬(head ++ s5Form a ++ tail).length < S_SIZE_I6 := hfit
    have h₁ : ¬Family.atp .AF_INET6 = S_ATP_I4 := by decide
    have h₂ : ¬Family.atp .AF_INET6 = S_ATP_ID := by decide
    have h₃ : Family.atp .AF_INET6 = S_ATP_I6 := rfl
    rw [if_neg h₁, if_neg h₂, if_pos h₃, if_neg h₁, if_neg h₂, if_pos h₃, if_neg hfit,
      if_neg (by simp [h6 rfl])]
    exact congrArg (S5Addr.ofOption _) hread

theorem s5GetAddr_noIpv6 {params : AddrParams} (hp : params.ipv6 = false) {head : Bytes} (hh : head.length = 3)
    {a : SockaddrU} (hf : a.family = .AF_INET6) (tail : Bytes) :
    s5GetAddr params (head ++ s5Form a ++ tail) = .error S_ER_ATP := by
  have hlen : (head ++ s5Form a ++ tail).length = S_SIZE_I6 + tail.length := by
    rw [List.length_append, List.length_append, hh, length_s5Form, hf]
    rfl
  have hatp : (head ++ s5Form a ++ tail).getD 3 0 = S_ATP_I6 := by
    rw [s5Form, hf, List.append_assoc, List.getD_eq_getElem?_getD, List.getElem?_append_right (by omega), hh]
    rfl
  have hmin : ¬(head ++ s5Form a ++ tail).length < S_SIZE_MIN := by
    rw [hlen, S_SIZE_I6, S_SIZE_MIN, S_SIZE_I4]
    omega
  have hfit : ¬(head ++ s5Form a ++ tail).length < S_SIZE_I6 := by omega
  have h₁ : ¬S_ATP_I6 = S_ATP_I4 := by decide
  have h₂ : ¬S_ATP_I6 = S_ATP_ID := by decide
  rw [s5GetAddr, if_neg hmin, hatp]
  dsimp only
  rw [if_neg h₁, if_neg h₂, if_pos rfl, if_neg hfit, if_neg h₁, if_neg h₂, if_pos rfl, if_pos hp]

/-- **A message that was cut short is refused**, wherever the cut is. -/
theorem s5GetAddr_cut (params : AddrParams) {head : Bytes} (hh : head.length = 3) (a : SockaddrU) {k : ℕ}
    (hk : k < a.family.s5Size) : s5GetAddr params ((head ++ s5Form a).take k) = .error S_ER_GEN := by
  have hlen : ((head ++ s5Form a).take k).length = k := by
    rw [List.length_take, List.length_append, hh, length_s5Form]
    rw [Family.s5Size_eq] at hk ⊢
    omega
  rw [s5GetAddr, hlen]
  by_cases hmin : k < S_SIZE_MIN
  · rw [if_pos hmin]
  · have hatp : ((head ++ s5Form a).take k).getD 3 0 = a.family.atp := by
      have h3 : 3 < k := by
        rw [S_SIZE_MIN, S_SIZE_I4] at hmin
        omega
      rw [s5Form, List.getD_eq_getElem?_getD, List.getElem?_take_of_lt h3,
        List.getElem?_append_right (by omega), hh]
      rfl
    rw [if_neg hmin]
    simp only [hatp]
    generalize a.family = f at *
    cases f with
    | AF_INET => exact absurd hk hmin
    | AF_INET6 =>
      have h₁ : ¬Family.atp .AF_INET6 = S_ATP_I4 := by decide
      have h₂ : ¬Family.atp .AF_INET6 = S_ATP_ID := by decide
      have h₃ : Family.atp .AF_INET6 = S_ATP_I6 := rfl
      have hk : k < S_SIZE_I6 := hk
      rw [if_neg h₁, if_neg h₂, if_pos h₃, if_pos hk]

end BypassVpn.Ciadpi
