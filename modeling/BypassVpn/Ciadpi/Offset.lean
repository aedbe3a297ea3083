import BypassVpn.Ciadpi.Desync

/-!
# What an offset resolves to

* `NoHost`, `genOffset_host`: an offset that counts from the host.
* `genOffset_plain`, `genOffset_rand`: the other offsets.
* **`genOffset_again`**: without the random flag an offset resolves to the same number a second time.
-/

namespace BypassVpn.Ciadpi

open Region

theorem initProtoInfo_init (buffer : Bytes) (info : ProtoInfo) : (initProtoInfo buffer info).init = true := by
  unfold initProtoInfo
  by_cases hi : info.init = true
  · rw [if_pos hi]
    exact hi
  · rw [if_neg hi]
    dsimp only
    split <;> rfl

theorem initProtoInfo_of_init {buffer : Bytes} {info : ProtoInfo} (h : info.init = true) :
    initProtoInfo buffer info = info := if_pos h

/-- The decoy gives the data a type, and leaves the host as it is. -/
theorem fakeType_fields (buffer : Bytes) (info : ProtoInfo) :
    (fakeType buffer info).init = info.init ∧ (fakeType buffer info).hostLen = info.hostLen ∧
      (fakeType buffer info).hostPos = info.hostPos ∧
      (info.type ≠ 0 → (fakeType buffer info).type = info.type) := by
  unfold fakeType
  by_cases ht : info.type ≠ 0
  · rw [if_pos ht]
    exact ⟨rfl, rfl, rfl, fun _ => rfl⟩
  · rw [if_neg ht]
    refine ⟨?_, ?_, ?_, fun h => absurd h ht⟩ <;>
    · split
      · rfl
      · split <;> rfl

section Offset

variable {rand : ℕ} {pos : Int} {flag : ℕ} {buffer : Bytes} {lp : Int} {info : ProtoInfo}

theorem genOffset_snd : (genOffset rand pos flag buffer lp info).2 =
    if has flag (OFFSET_SNI ||| OFFSET_HOST) then initProtoInfo buffer info else info := by
  unfold genOffset
  dsimp only
  by_cases hhost : has flag (OFFSET_SNI ||| OFFSET_HOST) = true
  · rw [if_pos hhost, if_pos hhost]
    repeat' split
    all_goals rfl
  · rw [if_neg hhost, if_neg hhost]
    repeat' split
    all_goals rfl

/-- The host is not there, or not that of a TLS message where the flags ask for one. -/
def NoHost (flag : ℕ) (info : ProtoInfo) : Prop :=
  info.hostPos = 0 ∨ (has flag OFFSET_SNI ∧ info.type ≠ IS_HTTPS)

instance : Decidable (NoHost flag info) := inferInstanceAs (Decidable (_ ∨ _))

/-- What the other flags add to the offset of a host. -/
def hostPart (flag rand : ℕ) (hostLen : Int) : Int :=
  if has flag OFFSET_END then hostLen
  else if has flag OFFSET_MID then hostLen.tdiv 2
  else if has flag OFFSET_RAND then (rand : Int).tmod hostLen
  else 0

theorem genOffset_host (h : has flag (OFFSET_SNI ||| OFFSET_HOST) = true) :
    (genOffset rand pos flag buffer lp info).1 =
      if NoHost flag (initProtoInfo buffer info) then -1
      else pos + (initProtoInfo buffer info).hostPos +
        hostPart flag rand (initProtoInfo buffer info).hostLen := by
  unfold genOffset hostPart
  dsimp only
  rw [if_pos h]
  by_cases hno : (initProtoInfo buffer info).hostPos = 0 ∨
      (has flag OFFSET_SNI = true ∧ (initProtoInfo buffer info).type ≠ IS_HTTPS)
  · have hno' : NoHost flag (initProtoInfo buffer info) := hno
    rw [if_pos hno, if_pos hno']
  · have hno' : ¬ NoHost flag (initProtoInfo buffer info) := hno
    rw [if_neg hno, if_neg hno']
    repeat' split
    all_goals simp

/-- An offset without a host does not depend on what is known of one, nor, without the random flag, on
the place that the loop has come to. -/
theorem genOffset_plain (h : has flag (OFFSET_SNI ||| OFFSET_HOST) = false)
    (hrand : has flag OFFSET_RAND = false) :
    (genOffset rand pos flag buffer lp info).1 =
      if has flag OFFSET_MID then pos + (buffer.length / 2 : ℕ)
      else if pos < 0 ∨ has flag OFFSET_END then pos + buffer.length
      else pos := by
  unfold genOffset
  dsimp only
  rw [h, hrand, if_neg Bool.false_ne_true, if_neg Bool.false_ne_true]
  repeat' split
  all_goals rfl

/-- **An offset resolves to the same number again**, after the decoy, if it is not random. -/
theorem genOffset_again {rand' : ℕ} {lp' : Int} (hrand : has flag OFFSET_RAND = false)
    (h0 : 0 ≤ (genOffset rand pos flag buffer lp info).1) :
    (genOffset rand' pos flag buffer lp' (fakeType buffer (genOffset rand pos flag buffer lp info).2)).1 =
      (genOffset rand pos flag buffer lp info).1 := by
  by_cases hhost : has flag (OFFSET_SNI ||| OFFSET_HOST) = true
  · rw [genOffset_host hhost] at h0
    rw [genOffset_host hhost, genOffset_host hhost, genOffset_snd, if_pos hhost]
    obtain ⟨known, hknown⟩ : ∃ known, initProtoInfo buffer info = known := ⟨_, rfl⟩
    have hinit : known.init = true := hknown ▸ initProtoInfo_init buffer info
    obtain ⟨hi, hlen, hposn, htype⟩ := fakeType_fields buffer known
    rw [hknown] at h0 ⊢
    rw [initProtoInfo_of_init (hi.trans hinit)]
    by_cases hno : NoHost flag known
    · rw [if_pos hno] at h0
      omega
    · have hagain : ¬ NoHost flag (fakeType buffer known) := by
        rintro (h | ⟨hsni, h⟩)
        · exact hno (.inl (hposn ▸ h))
        · have hhttps : known.type = IS_HTTPS := by
            by_contra hne
            exact hno (.inr ⟨hsni, hne⟩)
          exact h ((htype (by rw [hhttps]; decide)).trans hhttps)
      have hpart : hostPart flag rand' known.hostLen = hostPart flag rand known.hostLen := by
        unfold hostPart
        rw [hrand, if_neg Bool.false_ne_true, if_neg Bool.false_ne_true]
      rw [if_neg hno, if_neg hagain, hposn, hlen, hpart]
  · have hhost' : has flag (OFFSET_SNI ||| OFFSET_HOST) = false := by simpa using hhost
    rw [genOffset_plain hhost' hrand, genOffset_plain hhost' hrand]

end Offset

end BypassVpn.Ciadpi
