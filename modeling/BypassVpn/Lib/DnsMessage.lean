import BypassVpn.Lib.Region
import BypassVpn.Lib.OnesComplement

/-!
# DNS messages

The message format of RFC 1035, section 4: a decoder that follows compression pointers and accepts a
message only when its four sections fill it. The limit of 255 octets on a whole name is not imposed.

* `Question`, `Record`, `Message`; `decodeName`, `decodeQuestion`, `decodeRecord`, `decodeMany`,
  `decodeMessage`.
* `encodeName`: a name without compression; `decodeName_encodeName` and `decodeName_pointer`.
* `decodeRecord_append`, `decodeMany_flatMap`: reading back what was laid out one after the other.
-/

namespace DnsMessage

open Region OnesComplement

/-- Octet strings. -/
abbrev Octets := List UInt8

/-- An entry of the question section. -/
structure Question where
  qname : List Octets
  qtype : ℕ
  qclass : ℕ
  deriving DecidableEq, Repr

/-- A resource record. -/
structure Record where
  name : List Octets
  type : ℕ
  cls : ℕ
  ttl : ℕ
  rdata : Octets
  deriving DecidableEq, Repr

/-- A DNS message, decoded. -/
structure Message where
  id : ℕ
  qr : Bool
  opcode : ℕ
  aa : Bool
  tc : Bool
  rd : Bool
  ra : Bool
  z : ℕ
  rcode : ℕ
  questions : List Question
  answers : List Record
  authorities : List Record
  additionals : List Record
  deriving DecidableEq, Repr

variable (m : Octets)

/-! ### The decoder -/

/-- The 16-bit field at `pos`. -/
def field16 (pos : ℕ) : Option ℕ :=
  if pos + 2 ≤ m.length then some (val (slice m pos 2)) else none

/-- The labels of the name at `pos`, and the position behind it. -/
def decodeName : ℕ → ℕ → Option (List Octets × ℕ)
  | 0, _ => none
  | fuel + 1, pos => do
    let b := (← m[pos]?).toNat
    if b = 0 then return ([], pos + 1)
    else if b < 64 then
      if pos + 1 + b ≤ m.length then
        let (labels, stop) ← decodeName fuel (pos + 1 + b)
        return (slice m (pos + 1) b :: labels, stop)
      else none
    else if 192 ≤ b then
      let c := (← m[pos + 1]?).toNat
      let (labels, _) ← decodeName fuel ((b - 192) * 256 + c)
      return (labels, pos + 2)
    else none

/-- The question at `pos`, and the position behind it. -/
def decodeQuestion (pos : ℕ) : Option (Question × ℕ) := do
  let (qname, pos) ← decodeName m m.length pos
  return (⟨qname, ← field16 m pos, ← field16 m (pos + 2)⟩, pos + 4)

/-- The record at `pos`, and the position behind it. -/
def decodeRecord (pos : ℕ) : Option (Record × ℕ) := do
  let (name, pos) ← decodeName m m.length pos
  let type ← field16 m pos
  let cls ← field16 m (pos + 2)
  let ttlHigh ← field16 m (pos + 4)
  let ttlLow ← field16 m (pos + 6)
  let rdlength ← field16 m (pos + 8)
  if pos + 10 + rdlength ≤ m.length then
    return (⟨name, type, cls, ttlHigh * 65536 + ttlLow, slice m (pos + 10) rdlength⟩, pos + 10 + rdlength)
  else none

/-- A number of items, one behind the other. -/
def decodeMany {α : Type} (item : ℕ → Option (α × ℕ)) : ℕ → ℕ → Option (List α × ℕ)
  | 0, pos => some ([], pos)
  | n + 1, pos => do
    let (x, pos) ← item pos
    let (xs, pos) ← decodeMany item n pos
    return (x :: xs, pos)

/-- The header and the four sections. -/
def decodeMessage : Option Message := do
  let id ← field16 m 0
  let flags ← field16 m 2
  let (questions, pos) ← decodeMany (decodeQuestion m) (← field16 m 4) 12
  let (answers, pos) ← decodeMany (decodeRecord m) (← field16 m 6) pos
  let (authorities, pos) ← decodeMany (decodeRecord m) (← field16 m 8) pos
  let (additionals, pos) ← decodeMany (decodeRecord m) (← field16 m 10) pos
  if pos = m.length then
    return {
      id := id
      qr := flags.testBit 15
      opcode := flags / 2 ^ 11 % 16
      aa := flags.testBit 10
      tc := flags.testBit 9
      rd := flags.testBit 8
      ra := flags.testBit 7
      z := flags / 2 ^ 4 % 8
      rcode := flags % 16
      questions := questions
      answers := answers
      authorities := authorities
      additionals := additionals }
  else none

/-! ### Names -/

/-- A name without compression. -/
def encodeName (labels : List Octets) : Octets :=
  labels.flatMap (fun l => UInt8.ofNat l.length :: l) ++ [0]

/-- Labels a name can have. -/
def ValidLabels (labels : List Octets) : Prop := ∀ l ∈ labels, 1 ≤ l.length ∧ l.length ≤ 63

variable {m}

theorem field16_of_pair {pos : ℕ} {bs : Octets} (h : Holds m pos bs) (hbs : bs.length = 2) :
    field16 m pos = some (val bs) := by
  have hlen := h.le_length (List.ne_nil_of_length_pos (by omega))
  rw [hbs] at hlen
  rw [Holds, hbs] at h
  rw [field16, if_pos hlen, h]

theorem field16_of_holds {pos n : ℕ} (h : Holds m pos (be 2 n)) : field16 m pos = some (n % 65536) := by
  rw [field16_of_pair h (length_be 2 n), val_be, show 256 ^ 2 = 65536 from rfl]

theorem length_lt_encodeName (labels : List Octets) : labels.length < (encodeName labels).length := by
  induction labels with
  | nil => simp [encodeName]
  | cons l labels ih =>
    simp only [encodeName, List.flatMap_cons, List.length_append, List.length_cons] at ih ⊢
    omega

theorem toNat_ofNat_label {l : Octets} (h : l.length < 256) : (UInt8.ofNat l.length).toNat = l.length := by
  rw [UInt8.toNat_ofNat', Nat.mod_eq_of_lt h]

theorem encodeName_cons (l : Octets) (labels : List Octets) :
    encodeName (l :: labels) = UInt8.ofNat l.length :: l ++ encodeName labels := by
  simp [encodeName]

/-- **A name is read in one way only**, as long as its length bytes are not zero. -/
theorem encodeName_unique {labels labels' : List Octets} (hl : ∀ l ∈ labels, 1 ≤ l.length ∧ l.length < 256)
    (hl' : ∀ l ∈ labels', 1 ≤ l.length ∧ l.length < 256) {pos : ℕ} (hm : Holds m pos (encodeName labels))
    (hm' : Holds m pos (encodeName labels')) : labels = labels' := by
  induction labels generalizing labels' pos with
  | nil =>
    cases labels' with
    | nil => rfl
    | cons l' labels' =>
      obtain ⟨h1, h2⟩ := hl' l' List.mem_cons_self
      rw [encodeName_cons] at hm'
      have hb : m[pos]? = some 0 := hm.getElem?_eq
      have hb' := hm'.append.1.getElem?_eq
      have hlen := toNat_ofNat_label h2
      rw [hb, Option.some.injEq] at hb'
      rw [← hb'] at hlen
      exact absurd hlen (by simp; omega)
  | cons l labels ih =>
    obtain ⟨h1, h2⟩ := hl l List.mem_cons_self
    rw [encodeName_cons] at hm
    have hb := hm.append.1.getElem?_eq
    have hlen := toNat_ofNat_label h2
    cases labels' with
    | nil =>
      have hb' : m[pos]? = some 0 := hm'.getElem?_eq
      rw [hb', Option.some.injEq] at hb
      rw [← hb] at hlen
      exact absurd hlen (by simp; omega)
    | cons l' labels' =>
      obtain ⟨h1', h2'⟩ := hl' l' List.mem_cons_self
      rw [encodeName_cons] at hm'
      have hb' := hm'.append.1.getElem?_eq
      rw [hb, Option.some.injEq] at hb'
      have hll : l.length = l'.length := by rw [← hlen, hb', toNat_ofNat_label h2']
      obtain ⟨hhead, hrest⟩ := hm.append
      obtain ⟨hhead', hrest'⟩ := hm'.append
      have heq : l = l' := by
        have hs := (Holds.append (a := [UInt8.ofNat l.length]) hhead).2
        have hs' := (Holds.append (a := [UInt8.ofNat l'.length]) hhead').2
        rw [Holds, List.length_singleton] at hs hs'
        rw [← hs, hll, hs']
      rw [List.length_cons] at hrest hrest'
      rw [← hll] at hrest'
      rw [heq, ih (fun x hx => hl x (List.mem_cons_of_mem _ hx))
        (fun x hx => hl' x (List.mem_cons_of_mem _ hx)) hrest hrest']

/-- **A name that was written is read back.** -/
theorem decodeName_encodeName {labels : List Octets} (hv : ValidLabels labels) {fuel pos : ℕ}
    (hm : Holds m pos (encodeName labels)) (hf : labels.length < fuel) :
    decodeName m fuel pos = some (labels, pos + (encodeName labels).length) := by
  induction labels generalizing fuel pos with
  | nil =>
    obtain ⟨fuel, rfl⟩ := Nat.exists_eq_add_of_lt hf
    have h0 : m[pos]? = some 0 := hm.getElem?_eq
    rw [List.length_nil, Nat.zero_add, decodeName, h0]
    rfl
  | cons l labels ih =>
    obtain ⟨fuel, rfl⟩ : ∃ k, fuel = k + 1 := ⟨fuel - 1, by omega⟩
    obtain ⟨hl1, hl63⟩ := hv l List.mem_cons_self
    rw [encodeName_cons] at hm
    obtain ⟨hhead, hrest⟩ := hm.append
    have hb := hhead.getElem?_eq
    have hlen := hhead.le_length (List.cons_ne_nil _ _)
    have hlabel : slice m (pos + 1) l.length = l := (Holds.append (a := [UInt8.ofNat l.length]) hhead).2
    rw [List.length_cons] at hrest hlen
    rw [decodeName, hb]
    simp only [Option.bind_eq_bind, Option.bind_some, toNat_ofNat_label (show l.length < 256 by omega)]
    rw [if_neg (by omega), if_pos (by omega), if_pos (by omega), Nat.add_assoc, Nat.add_comm 1,
      ih (fun x hx => hv x (List.mem_cons_of_mem _ hx)) hrest (by simp only [List.length_cons] at hf; omega),
      hlabel, encodeName_cons, List.length_append, List.length_cons]
    simp only [Option.bind_some, Nat.add_assoc]
    rfl

/-- **A compression pointer stands for the name it points to.** -/
theorem decodeName_pointer {labels : List Octets} (hv : ValidLabels labels) {fuel pos target : ℕ}
    (hm : Holds m pos (be 2 (192 * 256 + target))) (ht : target < 64 * 256)
    (hname : Holds m target (encodeName labels)) (hf : labels.length + 1 < fuel) :
    decodeName m fuel pos = some (labels, pos + 2) := by
  obtain ⟨fuel, rfl⟩ : ∃ k, fuel = k + 1 := ⟨fuel - 1, by omega⟩
  rw [be_two] at hm
  have hb := hm.getElem?_eq
  have hc := (Holds.append (a := [_]) hm).2.getElem?_eq
  rw [List.length_singleton] at hc
  rw [decodeName, hb, hc]
  simp only [Option.bind_eq_bind, Option.bind_some, UInt8.toNat_ofNat']
  rw [if_neg (by omega), if_neg (by omega), if_pos (by omega),
    show ((192 * 256 + target) / 256 % 2 ^ 8 - 192) * 256 + (192 * 256 + target) % 2 ^ 8 = target by omega,
    decodeName_encodeName hv hname (by omega)]
  rfl

/-! ### Questions and records -/

theorem decodeQuestion_of_holds {q : Question} (hv : ValidLabels q.qname) {pos : ℕ}
    (hm : Holds m pos (encodeName q.qname ++ be 2 q.qtype ++ be 2 q.qclass))
    (ht : q.qtype < 65536) (hc : q.qclass < 65536) (hf : q.qname.length < m.length) :
    decodeQuestion m pos = some (q, pos + (encodeName q.qname).length + 4) := by
  obtain ⟨hnt, hcls⟩ := hm.append
  obtain ⟨hname, htype⟩ := hnt.append
  rw [List.length_append, length_be, ← Nat.add_assoc] at hcls
  rw [decodeQuestion, decodeName_encodeName hv hname hf]
  simp only [Option.bind_eq_bind, Option.bind_some, field16_of_holds htype, field16_of_holds hcls,
    Nat.mod_eq_of_lt ht, Nat.mod_eq_of_lt hc]
  rfl

/-- The fields of a record behind its name. -/
def encodeRecordBody (r : Record) : Octets :=
  be 2 r.type ++ (be 2 r.cls ++ (be 4 r.ttl ++ (be 2 r.rdata.length ++ r.rdata)))

/-- Records whose fields fit. -/
def Record.Fits (r : Record) : Prop :=
  r.type < 65536 ∧ r.cls < 65536 ∧ r.ttl < 2 ^ 32 ∧ r.rdata.length < 65536

theorem be_four_eq (n : ℕ) : be 4 n = be 2 (n / 65536) ++ be 2 n := by
  simp [be_four, be_two, Nat.div_div_eq_div_mul]

/-- **A record is read back**, whatever its name is written like. -/
theorem decodeRecord_of_holds {r : Record} (hfit : r.Fits) {pos stop : ℕ}
    (hname : decodeName m m.length pos = some (r.name, stop)) (hm : Holds m stop (encodeRecordBody r)) :
    decodeRecord m pos = some (r, stop + 10 + r.rdata.length) := by
  obtain ⟨ht, hc, httl, hl⟩ := hfit
  rw [encodeRecordBody, be_four_eq, List.append_assoc] at hm
  obtain ⟨h0, hm⟩ := hm.append
  obtain ⟨h2, hm⟩ := hm.append
  obtain ⟨h4, hm⟩ := hm.append
  obtain ⟨h6, hm⟩ := hm.append
  obtain ⟨h8, h10⟩ := hm.append
  simp only [length_be, Nat.add_assoc, Nat.reduceAdd] at h2 h4 h6 h8 h10
  have hlen : stop + 10 + r.rdata.length ≤ m.length := by
    by_cases hne : r.rdata = []
    · have := h8.le_length (by simp [be])
      rw [length_be] at this
      simp only [hne, List.length_nil]
      omega
    · exact h10.le_length hne
  have httl' : r.ttl / 65536 % 65536 * 65536 + r.ttl % 65536 = r.ttl := by omega
  rw [decodeRecord, hname]
  simp only [Option.bind_eq_bind, Option.bind_some, field16_of_holds h0, field16_of_holds h2,
    field16_of_holds h4, field16_of_holds h6, field16_of_holds h8, Nat.mod_eq_of_lt ht, Nat.mod_eq_of_lt hc,
    Nat.mod_eq_of_lt hl, httl']
  rw [if_pos hlen, h10]
  rfl

/-- **Items laid out one behind the other are read back in order.** -/
theorem decodeMany_flatMap {α : Type} {item : ℕ → Option (α × ℕ)} {encode : α → Octets} {xs : List α}
    (hitem : ∀ x ∈ xs, ∀ pos, Holds m pos (encode x) → item pos = some (x, pos + (encode x).length))
    {pos : ℕ} (hm : Holds m pos (xs.flatMap encode)) :
    decodeMany item xs.length pos = some (xs, pos + (xs.flatMap encode).length) := by
  induction xs generalizing pos with
  | nil => rfl
  | cons x xs ih =>
    rw [List.flatMap_cons] at hm
    obtain ⟨hx, hxs⟩ := hm.append
    rw [List.length_cons, decodeMany, hitem x List.mem_cons_self pos hx]
    simp only [Option.bind_eq_bind, Option.bind_some]
    rw [ih (fun y hy => hitem y (List.mem_cons_of_mem _ hy)) hxs, List.flatMap_cons, List.length_append,
      Nat.add_assoc]
    rfl

end DnsMessage
