import BypassVpn.Packet.DnsRoundTrip
import Mathlib.Data.List.Forall2

/-!
# Which questions `parseQuestion` accepts

* `parseQuestion_iff`: a question is accepted exactly when it is a run of labels of 1 to 191 octets,
  closed by a zero octet and followed by its type and class.
* `WellFormedQuestion`: what RFC 1035 allows there. `Overlong`: labels that it does not allow.
* `LookAlike`: different names that are written alike, where `US_ASCII` has one character for all the
  octets above 127 and the dots between labels are not told from dots inside them.
* **`parseQuestion_sound_iff`**: exactly these two kinds of names break the soundness of the parser.
* `lookAlike_joined`, `lookAlike_octet`: every name of two labels, and every octet above 127, has one.
-/

namespace BypassVpn

open Region OnesComplement DnsMessage

/-! ### The accepted questions -/

theorem readLabels_sound {query : Bytes} {fuel pos stop : ℕ} {acc ls : List (List Char)}
    (h : readLabels query fuel pos acc = .ok (some (stop, ls))) (hfuel : query.length ≤ pos + fuel)
    (hstop : stop + 4 ≤ query.length) :
    ∃ labels, WireLabels labels ∧ Holds query pos (encodeName labels) ∧
      stop = pos + (encodeName labels).length ∧ ls = acc ++ labels.map fun l => l.map asciiChar := by
  induction fuel generalizing pos acc with
  | zero =>
    rw [readLabels] at h
    obtain ⟨rfl, -⟩ := Prod.mk.inj (Option.some.inj (Except.ok.inj h))
    omega
  | succ fuel ih =>
    rw [readLabels] at h
    by_cases hpos : pos < query.length
    swap
    · rw [if_neg hpos] at h
      obtain ⟨rfl, -⟩ := Prod.mk.inj (Option.some.inj (Except.ok.inj h))
      omega
    rw [if_pos hpos, aget_eq hpos, pure_bind] at h
    set n := query[pos].toNat with hn
    have hhead : Holds query pos [UInt8.ofNat n] := by
      rw [Holds, slice, hn, UInt8.ofNat_toNat, List.length_singleton, List.drop_eq_getElem_cons hpos]
      rfl
    have hn256 : n < 256 := query[pos].toNat_lt
    by_cases h0 : n = 0
    · rw [if_pos h0] at h
      obtain ⟨rfl, rfl⟩ := Prod.mk.inj (Option.some.inj (Except.ok.inj h))
      rw [h0] at hhead
      exact ⟨[], fun _ hl => absurd hl List.not_mem_nil, hhead, rfl, by simp⟩
    rw [if_neg h0] at h
    by_cases hc : n &&& 0xC0 = 0xC0
    · rw [if_pos hc] at h
      cases h
    rw [if_neg hc] at h
    by_cases hend : pos + 1 + n > query.length
    · rw [if_pos hend] at h
      cases h
    rw [if_neg hend] at h
    obtain ⟨labels, hw, hrest, hs, hls⟩ := ih h (by omega)
    have hlen : (slice query (pos + 1) n).length = n := length_slice (by omega)
    have hlabel : Holds query (pos + 1) (slice query (pos + 1) n) := by rw [Holds, hlen]
    have h192 : ¬ 192 ≤ n := (and_C0_iff hn256).not.mp hc
    refine ⟨slice query (pos + 1) n :: labels, ?_, ?_, ?_, ?_⟩
    · exact List.forall_mem_cons.mpr ⟨by omega, hw⟩
    · rw [encodeName_cons, hlen]
      refine (hhead.concat hlabel).concat ?_
      rw [List.length_append, List.length_singleton, hlen, ← Nat.add_assoc]
      exact hrest
    · rw [hs, encodeName_cons, List.length_append, List.length_cons, hlen]
      omega
    · rw [hls, List.map_cons, List.append_assoc]
      rfl

/-- **What is accepted, and what is returned for it.** -/
theorem parseQuestion_iff (query : Bytes) (host : String) (qType n : ℕ) :
    parseQuestion query = .ok (some (host, qType, n)) ↔
      ∃ labels, HasQuestion query labels ∧ host = hostName labels ∧
        qType = val (slice query (12 + (encodeName labels).length) 2) ∧
        n = (encodeName labels).length + 4 := by
  constructor
  · intro h
    rw [parseQuestion] at h
    obtain ⟨count, hu, h⟩ := bind_eq_ok h
    by_cases hcount : count < 1
    · rw [if_pos hcount] at h
      cases h
    rw [if_neg hcount] at h
    obtain ⟨r, hr, h⟩ := bind_eq_ok h
    cases r with
    | none => cases h
    | some r =>
    obtain ⟨stop, ls⟩ := r
    dsimp only at h
    by_cases hend : stop + 4 > query.length
    · rw [if_pos hend] at h
      cases h
    obtain ⟨labels, hw, hname, rfl, hls⟩ := readLabels_sound hr (by omega) (by omega)
    have hcount' : 1 ≤ val (slice query 4 2) := by
      rw [u16At_eq (by omega)] at hu
      cases hu
      omega
    rw [if_neg hend, u16At_eq (by omega), pure_bind, hls, List.nil_append, ← hostName] at h
    by_cases hne : labels = []
    · rw [hne, hostName, List.map_nil, List.intercalate_nil] at h
      cases h
    have hq : HasQuestion query labels := ⟨hcount', hne, hw, hname, by omega⟩
    refine ⟨labels, hq, ?_⟩
    rw [hostName_ne_empty hne hw] at h
    simp only [Bool.false_eq_true, if_false] at h
    cases h
    exact ⟨rfl, rfl, by omega⟩
  · rintro ⟨labels, hq, rfl, rfl, rfl⟩
    exact hq.parseQuestion_eq

theorem HasQuestion.unique {query : Bytes} {labels labels' : List Bytes} (h : HasQuestion query labels)
    (hw : ∀ l ∈ labels', 1 ≤ l.length ∧ l.length < 256) (hname : Holds query 12 (encodeName labels')) :
    labels = labels' := by
  refine encodeName_unique (fun l hl => ?_) hw h.name hname
  have := h.wire l hl
  omega

/-! ### Names of RFC 1035 -/

/-- Behind the header stand a name of RFC 1035 without compression and four more octets. -/
def WellFormedQuestion (query : Bytes) : Prop :=
  ∃ labels, ValidLabels labels ∧ (encodeName labels).length ≤ 255 ∧ Holds query 12 (encodeName labels) ∧
    12 + (encodeName labels).length + 4 ≤ query.length

/-- A label of more than 63 octets, or a name of more than 255. -/
def Overlong (labels : List Bytes) : Prop :=
  (∃ l ∈ labels, 63 < l.length) ∨ 255 < (encodeName labels).length

theorem wellFormed_iff {query : Bytes} {labels : List Bytes} (h : HasQuestion query labels) :
    WellFormedQuestion query ↔ ¬ Overlong labels := by
  constructor
  · rintro ⟨labels', hv, h255, hname, -⟩ hover
    have heq : labels = labels' := h.unique (fun l hl => by have := hv l hl; omega) hname
    subst heq
    rcases hover with ⟨l, hl, h63⟩ | hlong
    · have := hv l hl
      omega
    · omega
  · intro hover
    have hlabels : ValidLabels labels := by
      intro l hl
      refine ⟨(h.wire l hl).1, ?_⟩
      by_contra h63
      exact hover (.inl ⟨l, hl, by omega⟩)
    exact ⟨labels, hlabels, Nat.le_of_not_lt fun hlong => hover (.inr hlong), h.name, h.size⟩

/-! ### Names that are written alike -/

/-- The octets that `US_ASCII` decodes to one character. -/
def SameAscii (b c : UInt8) : Prop := b = c ∨ 128 ≤ b.toNat ∧ 128 ≤ c.toNat

/-- The octets of the labels with dots between them. -/
def dottedOctets (labels : List Bytes) : Bytes := [46].intercalate labels

/-- Different names whose dotted forms differ in octets above 127 only. -/
def LookAlike (labels labels' : List Bytes) : Prop :=
  labels ≠ labels' ∧ List.Forall₂ SameAscii (dottedOctets labels) (dottedOctets labels')

theorem asciiChar_eq_iff (b c : UInt8) : asciiChar b = asciiChar c ↔ SameAscii b c := by
  have hlow : ∀ n < 128, (Char.ofNat n).toNat = n := by decide
  have hrep : ∀ n < 128, Char.ofNat n ≠ '\uFFFD' := by decide
  rw [SameAscii, asciiChar, asciiChar]
  by_cases hb : b.toNat < 128
  · by_cases hc : c.toNat < 128
    · rw [if_pos hb, if_pos hc]
      constructor
      · intro h
        left
        rw [← UInt8.toNat_inj, ← hlow _ hb, h, hlow _ hc]
      · rintro (rfl | h)
        · rfl
        · omega
    · rw [if_pos hb, if_neg hc]
      refine iff_of_false (hrep _ hb) ?_
      rintro (rfl | h) <;> omega
  · by_cases hc : c.toNat < 128
    · rw [if_neg hb, if_pos hc]
      refine iff_of_false (hrep _ hc).symm ?_
      rintro (rfl | h) <;> omega
    · rw [if_neg hb, if_neg hc]
      exact iff_of_true rfl (.inr ⟨by omega, by omega⟩)

theorem hostName_eq_map (labels : List Bytes) :
    hostName labels = String.ofList ((dottedOctets labels).map asciiChar) := by
  rw [hostName, dottedOctets]
  congr 1
  induction labels with
  | nil => rfl
  | cons l labels ih =>
    cases labels with
    | nil => simp
    | cons l' labels =>
      rw [List.map_cons, List.map_cons, List.intercalate_cons_cons, ← List.map_cons, ih,
        List.intercalate_cons_cons]
      simp only [List.map_append, List.map_cons, List.map_nil]
      rfl

theorem forall₂_asciiChar {bs cs : Bytes} :
    bs.map asciiChar = cs.map asciiChar ↔ List.Forall₂ SameAscii bs cs := by
  rw [← List.forall₂_eq_eq_eq, List.forall₂_map_left_iff, List.forall₂_map_right_iff]
  simp only [asciiChar_eq_iff]

theorem hostName_eq_iff (labels labels' : List Bytes) :
    hostName labels = hostName labels' ↔
      List.Forall₂ SameAscii (dottedOctets labels) (dottedOctets labels') := by
  rw [hostName_eq_map, hostName_eq_map, ← forall₂_asciiChar]
  constructor
  · intro h
    exact String.ofList_injective h
  · intro h
    rw [h]

/-- The octets of the name in a question section of `n` octets. -/
def qnameOctets (query : Bytes) (n : ℕ) : Bytes := slice query 12 (n - 4)

theorem HasQuestion.qnameOctets_eq {query : Bytes} {labels : List Bytes} (h : HasQuestion query labels) :
    qnameOctets query ((encodeName labels).length + 4) = encodeName labels := by
  rw [qnameOctets, Nat.add_sub_cancel, h.name]

/-! ### The two defects -/

/-- **Exactly which questions are misread.** A question that is accepted is well formed unless one of
its labels or the whole name is overlong; two that are accepted for one host have the same name unless
their names look alike. -/
theorem parseQuestion_sound_iff (query query' : Bytes) :
    ((∀ host qType n, parseQuestion query = .ok (some (host, qType, n)) → WellFormedQuestion query) ↔
      ∀ labels, HasQuestion query labels → ¬ Overlong labels) ∧
    ((∀ host qType qType' n n', parseQuestion query = .ok (some (host, qType, n)) →
        parseQuestion query' = .ok (some (host, qType', n')) →
        qnameOctets query n = qnameOctets query' n') ↔
      ∀ labels labels', HasQuestion query labels → HasQuestion query' labels' →
        ¬ LookAlike labels labels') := by
  constructor
  · constructor
    · intro h labels hq
      exact (wellFormed_iff hq).mp (h _ _ _ hq.parseQuestion_eq)
    · intro h host qType n hp
      obtain ⟨labels, hq, -⟩ := (parseQuestion_iff query host qType n).mp hp
      exact (wellFormed_iff hq).mpr (h labels hq)
  · constructor
    · rintro h labels labels' hq hq' ⟨hne, halike⟩
      have hhost := (hostName_eq_iff labels labels').mpr halike
      have hp := hq.parseQuestion_eq
      rw [hhost] at hp
      have heq := h _ _ _ _ _ hp hq'.parseQuestion_eq
      rw [hq.qnameOctets_eq, hq'.qnameOctets_eq] at heq
      refine hne (hq.unique (fun l hl => ?_) (heq ▸ hq.name))
      have := hq'.wire l hl
      omega
    · intro h host qType qType' n n' hp hp'
      obtain ⟨labels, hq, hhost, -, rfl⟩ := (parseQuestion_iff query host qType n).mp hp
      obtain ⟨labels', hq', hhost', -, rfl⟩ := (parseQuestion_iff query' host qType' n').mp hp'
      rw [hq.qnameOctets_eq, hq'.qnameOctets_eq]
      by_contra hne
      refine h labels labels' hq hq' ⟨fun heq => hne (heq ▸ rfl), ?_⟩
      rw [← hostName_eq_iff, ← hhost, hhost']

/-- A query for the addresses of a name. -/
def queryFor (labels : List Bytes) : Bytes :=
  [0, 7, 1, 0, 0, 1, 0, 0, 0, 0, 0, 0] ++ encodeName labels ++ [0, 1, 0, 1]

theorem hasQuestion_queryFor {labels : List Bytes} (hne : labels ≠ []) (hw : WireLabels labels) :
    HasQuestion (queryFor labels) labels := by
  refine ⟨?_, hne, hw, ?_, ?_⟩
  · rw [queryFor, List.append_assoc, slice_append_left (by simp)]
    decide
  · have hheader : ([0, 7, 1, 0, 0, 1, 0, 0, 0, 0, 0, 0] : Bytes).length = 12 := rfl
    rw [Holds, queryFor, slice_append_left (by rw [List.length_append, hheader]),
      slice_append_right (by rw [hheader]), hheader]
    exact slice_full _
  · simp only [queryFor, List.length_append, List.length_cons, List.length_nil]
    omega

theorem wireLabels_aB : WireLabels [[97], [98]] := by unfold WireLabels; decide

theorem wireLabels_aDotB : WireLabels [[97, 46, 98]] := by unfold WireLabels; decide

/-- A label of 64 octets is accepted, and `a.b` is read from two labels and from one. -/
theorem names_misread :
    (¬ ∀ query : Bytes, 12 ≤ query.length → ∀ host qType n,
      parseQuestion query = .ok (some (host, qType, n)) → WellFormedQuestion query) ∧
    ¬ ∀ query query' : Bytes, 12 ≤ query.length → 12 ≤ query'.length → ∀ host qType qType' n n',
      parseQuestion query = .ok (some (host, qType, n)) →
      parseQuestion query' = .ok (some (host, qType', n')) →
      qnameOctets query n = qnameOctets query' n' := by
  constructor
  · intro h
    have hw : WireLabels [List.replicate 64 97] := by unfold WireLabels; decide
    have hq := hasQuestion_queryFor (List.cons_ne_nil _ _) hw
    refine (wellFormed_iff hq).mp (h _ (by decide) _ _ _ hq.parseQuestion_eq) (.inl ?_)
    exact ⟨_, List.mem_singleton_self _, by decide⟩
  · intro h
    have hq := hasQuestion_queryFor (List.cons_ne_nil _ _) wireLabels_aB
    have hq' := hasQuestion_queryFor (List.cons_ne_nil _ _) wireLabels_aDotB
    have heq := h _ _ (by decide) (by decide) _ _ _ _ _ hq.parseQuestion_eq hq'.parseQuestion_eq
    exact absurd heq (by decide)

/-! ### How common they are -/

theorem SameAscii.refl (bs : Bytes) : List.Forall₂ SameAscii bs bs :=
  List.forall₂_same.mpr fun _ _ => .inl rfl

/-- **Every name of two labels looks like a name of one.** -/
theorem lookAlike_joined (l l' : Bytes) (before after : List Bytes) :
    LookAlike (before ++ l :: l' :: after) (before ++ (l ++ 46 :: l') :: after) := by
  constructor
  · intro h
    have hlen := congrArg List.length h
    simp at hlen
  · have htail : dottedOctets (l :: l' :: after) = dottedOctets ((l ++ 46 :: l') :: after) := by
      unfold dottedOctets
      cases after with
      | nil => simp [List.intercalate_cons_cons]
      | cons l'' after => simp [List.intercalate_cons_cons]
    have heq : dottedOctets (before ++ l :: l' :: after) =
        dottedOctets (before ++ (l ++ 46 :: l') :: after) := by
      induction before with
      | nil => exact htail
      | cons x before ih =>
        unfold dottedOctets at ih ⊢
        rw [List.cons_append, List.cons_append, List.intercalate_cons_of_ne_nil (by simp),
          List.intercalate_cons_of_ne_nil (by simp), ih]
    rw [heq]
    exact SameAscii.refl _

theorem lookAlike_octet (before after : List Bytes) (l l' : Bytes) {b c : UInt8} (hb : 128 ≤ b.toNat)
    (hc : 128 ≤ c.toNat) (hbc : b ≠ c) :
    LookAlike (before ++ (l ++ b :: l') :: after) (before ++ (l ++ c :: l') :: after) := by
  constructor
  · intro h
    have hlabel := (List.cons.inj (List.append_cancel_left h)).1
    exact hbc (List.cons.inj (List.append_cancel_left hlabel)).1
  · rw [← hostName_eq_iff, hostName, hostName]
    have hbc' : asciiChar b = asciiChar c := (asciiChar_eq_iff b c).mpr (.inr ⟨hb, hc⟩)
    simp only [List.map_append, List.map_cons, hbc']

theorem mem_dottedOctets {labels : List Bytes} {b : UInt8} (h : b ∈ dottedOctets labels) :
    b = 46 ∨ ∃ l ∈ labels, b ∈ l := by
  induction labels with
  | nil => cases h
  | cons l labels ih =>
    by_cases hne : labels = []
    · subst hne
      rw [dottedOctets, List.intercalate_singleton] at h
      exact .inr ⟨l, List.mem_cons_self, h⟩
    · rw [dottedOctets, List.intercalate_cons_of_ne_nil hne, List.append_assoc, List.mem_append,
        List.mem_append, List.mem_singleton] at h
      rcases h with h | h | h
      · exact .inr ⟨l, List.mem_cons_self, h⟩
      · exact .inl h
      · exact (ih h).imp_right fun ⟨l', hl', hb⟩ => ⟨l', List.mem_cons_of_mem _ hl', hb⟩

theorem eq_of_sameAscii {bs cs : Bytes} (hplain : ∀ b ∈ bs, b.toNat < 128)
    (h : List.Forall₂ SameAscii bs cs) : bs = cs := by
  induction h with
  | nil => rfl
  | cons hbc _ ih =>
    obtain ⟨hb, hplain⟩ := List.forall_mem_cons.mp hplain
    rw [hbc.resolve_right (by omega), ih hplain]

/-- **Names of plain labels never look alike**: octets below 128, and no dot inside a label. -/
theorem not_lookAlike_of_plain {labels labels' : List Bytes} (hne : labels ≠ []) (hne' : labels' ≠ [])
    (h : ∀ l ∈ labels, ∀ b ∈ l, b.toNat < 128 ∧ b ≠ 46)
    (h' : ∀ l ∈ labels', ∀ b ∈ l, b.toNat < 128 ∧ b ≠ 46) : ¬ LookAlike labels labels' := by
  rintro ⟨hdiff, halike⟩
  have hplain : ∀ b ∈ dottedOctets labels, b.toNat < 128 := by
    intro b hb
    rcases mem_dottedOctets hb with rfl | ⟨l, hl, hbl⟩
    · decide
    · exact (h l hl b hbl).1
  apply hdiff
  rw [← List.splitOn_intercalate 46 (fun l hl hdot => (h l hl 46 hdot).2 rfl) hne,
    ← List.splitOn_intercalate 46 (fun l hl hdot => (h' l hl 46 hdot).2 rfl) hne']
  exact congrArg _ (eq_of_sameAscii hplain halike)

end BypassVpn
