import BypassVpn.Ciadpi.Offset
import BypassVpn.Ciadpi.PartLoop

/-!
# A decoy before a disorder part

`init_params` puts the decoy at the offset of the part that it precedes. The loop takes the decoy for
sent data: it goes on behind the offset, and nothing is left for the part itself.

* `tamp_le`: the changes before the loop stay within the buffer.
* `Cut`: some data left under TTL 1; `plain_cuts`, `decoy_run`: the runs without and with a decoy.
* **`desync_decoy_cancels`**: the decoy cancels the cut, in every configuration.
-/

namespace BypassVpn.Ciadpi

open Region Intervals

/-! ### The changes before the loop -/

theorem partTls_room {mem : Bytes} {bfsize lp n : ℕ} {pos : Int}
    (h : (partTls mem bfsize lp n pos).2 = true) :
    n + 5 ≤ bfsize - lp ∧ 0 ≤ pos ∧ pos + 5 ≤ n := by
  unfold partTls at h
  by_cases hno : n < 3 ∨ bfsize - lp - n < 5 ∨ pos < 0 ∨ pos + 5 > n
  · rw [if_pos hno] at h
    cases h
  · push Not at hno
    omega

/-- Each record split leaves five bytes more, within the buffer. -/
theorem tampRecords_le {rand : ℕ → ℕ} {bfsize : ℕ} (parts : List (Part × ℕ)) (rc : ℕ) (lp : Int) (mem : Bytes)
    (n : ℕ) (info : ProtoInfo) (hn : n ≤ bfsize) (h0 : 0 ≤ lp) (hlp : lp ≤ n) :
    (tampRecords rand bfsize parts rc lp (mem, n, info)).2.1 ≤ bfsize := by
  induction parts generalizing rc lp mem n info with
  | nil => exact hn
  | cons p parts ih =>
    obtain ⟨part, k⟩ := p
    unfold tampRecords
    dsimp only
    generalize hpos : (if part.pos < 0 ∨ part.flag ≠ 0 then (_ : Int) else _) + part.s * k = pos
    by_cases hlt : pos < lp
    · rw [if_pos hlt]
      exact hn
    · rw [if_neg hlt]
      by_cases hcut : (partTls mem bfsize lp.toNat (n - lp.toNat) (pos - lp)).2 = true
      · obtain ⟨hroom, hge, hle⟩ := partTls_room hcut
        rw [if_pos hcut]
        exact ih _ _ _ _ _ (by omega) (by omega) (by omega)
      · rw [if_neg hcut]
        exact hn

theorem tamp_le {rand : ℕ → ℕ} {bfsize : ℕ} {dp : DesyncParams} {mem mem' : Bytes} {n n' : ℕ}
    {info info' : ProtoInfo} (hn : n ≤ bfsize) (h : tamp rand bfsize dp mem n info = some (mem', n', info')) :
    n' ≤ bfsize := by
  have hrecords : ∀ m, (if dp.tlsrec ≠ [] ∧ isTlsChello (m.take n) = true then
      some (tampRecords rand bfsize (rounds dp.tlsrec) 0 0 (m, n, info)) else some (m, n, info)) =
      some (mem', n', info') → n' ≤ bfsize := by
    intro m hm
    by_cases hrec : dp.tlsrec ≠ [] ∧ isTlsChello (m.take n) = true
    · rw [if_pos hrec] at hm
      have hle := @tampRecords_le rand bfsize (rounds dp.tlsrec) 0 0 m n info hn (Int.le_refl _) (by omega)
      rw [Option.some.inj hm] at hle
      exact hle
    · rw [if_neg hrec] at hm
      have hn' : n = n' := congrArg (fun st => st.2.1) (Option.some.inj hm)
      exact hn' ▸ hn
  unfold tamp at h
  dsimp only at h
  by_cases hmod : dp.modHttp ≠ 0 ∧ isHttp (mem.take n) = true
  · rw [if_pos hmod] at h
    obtain ⟨m, -, hm⟩ := Option.bind_eq_some_iff.mp h
    exact hrecords m hm
  · rw [if_neg hmod] at h
    exact hrecords mem h

/-! ### The parts of a configuration -/

namespace JniConfig

variable {cfg : JniConfig} (hdis : cfg.disorder ≠ 0)

theorem mainPart_r : cfg.mainPart.r = 1 := by
  unfold mainPart
  dsimp only
  split <;> rfl

include hdis in
theorem mainPart_isDisorder : isDisorderMode cfg.mainPart.m = true := by
  unfold mainPart
  dsimp only
  rw [if_pos hdis, if_pos hdis]
  split <;> rfl

include hdis in
theorem mainPart_plain : ({ cfg with fakeEnabled := false } : JniConfig).mainPart = cfg.mainPart := by
  unfold mainPart
  simp only [if_pos hdis]

theorem parts_plain (ttl : Int) (h : cfg.fakeEnabled = false) :
    (initParams ttl cfg).params.dp.parts = [cfg.mainPart] := by
  unfold initParams
  dsimp only
  rw [if_neg (by simp [h])]

include hdis in
theorem parts_fake (ttl : Int) (h : cfg.fakeEnabled = true) : (initParams ttl cfg).params.dp.parts =
    [{ cfg.mainPart with m := .DESYNC_FAKE }, cfg.mainPart] := by
  have hm : cfg.mainPart.m ≠ .DESYNC_FAKE := by
    intro hm
    have hfake := mainPart_isDisorder hdis
    rw [hm] at hfake
    cases hfake
  unfold initParams
  dsimp only
  rw [if_pos ⟨h, hm⟩]

end JniConfig

theorem rounds_cons (part : Part) (parts : List Part) (h : part.r = 1) :
    rounds (part :: parts) = (part, 0) :: rounds parts := by
  unfold rounds
  rw [List.flatMap_cons, h]
  rfl

/-! ### The runs -/

theorem getTcpFake_snd {j : Job} (rand : ℕ) (info : ProtoInfo) (hfake : j.g.params.dp.fakeData.data = none)
    (hoff : j.g.params.dp.fakeOffset.m = .DESYNC_NONE) :
    (getTcpFake j rand info).2 = fakeType j.buffer info := by
  unfold getTcpFake
  dsimp only
  rw [hoff, hfake, if_neg (show ¬ Demode.DESYNC_NONE ≠ .DESYNC_NONE from not_not_intro rfl)]
  rfl

/-- Some data left in a disorder part, under TTL 1. -/
def Run.Cut (run : Run) (buffer : Bytes) : Prop :=
  ∃ e ∈ run.loop.executed, isDisorderMode e.m = true ∧ e.lp < e.pos ∧ e.ttl = 1 ∧
    slice buffer e.lp.toNat (e.pos - e.lp).toNat <+: e.bytes

instance (run : Run) (buffer : Bytes) : Decidable (run.Cut buffer) :=
  inferInstanceAs (Decidable (∃ e ∈ run.loop.executed, _))

section Runs

variable {j : Job} (hnet : j.net.Complete) (hj : j.First) (hroom : j.buffer.length ≤ j.bfsize) {part : Part}
  {p : Int} {known : ProtoInfo} {st : Loop}

include hnet hj hroom in
/-- The round of a part that is not repeated, at an offset within the data. -/
theorem partStep_at
    (hoff : genOffset (j.rand (st.currPart + 1)) part.pos part.flag j.buffer st.lp st.info = (p, known))
    (hlp : st.lp ≤ p) (h0 : 0 < p) (hp : p < j.buffer.length) :
    ∃ st' e, partStep j part 0 st = .next (st'.restore j.g.params.defTtl p) ∧
      SentWhole j part 0 p { st with currPart := st.currPart + 1, info := known } st' e := by
  have hpos : (p, known).1 + part.s * (0 : ℕ) = p := by simp
  apply partStep_next 0 hnet hj hoff
  · rw [hpos]
    exact hlp
  · rw [hpos]
    omega
  · omega
  · rw [hpos]
    omega
  · intro _
    omega

include hnet hj hroom in
/-- Without a decoy the part sends what lies before its offset. -/
theorem plain_cuts {info : ProtoInfo} {ttl : Int} (hparts : j.g.params.dp.parts = [part]) (hr : part.r = 1)
    (hm : isDisorderMode part.m = true)
    (hoff : genOffset (j.rand 1) part.pos part.flag j.buffer 0 info = (p, known)) (h0 : 0 < p)
    (hp : p < j.buffer.length) :
    (desyncParts j info ttl).Cut j.buffer ∧
      Tiles 0 (desyncParts j info ttl).intervals j.buffer.length := by
  obtain ⟨st', e, hstep, hsent⟩ := @partStep_at j hnet hj hroom part p known
    ⟨0, 0, info, ttl, false, 0, []⟩ hoff (by show 0 ≤ p; omega) h0 hp
  obtain ⟨hlp, hpos⟩ := Prod.mk.inj hsent.interval
  have hrun : runParts j (rounds j.g.params.dp.parts) ⟨j.offset, 0, info, ttl, false, j.partSkip, []⟩ =
      (none, st'.restore j.g.params.defTtl p) := by
    rw [hparts, rounds_cons part [] hr, hj.offset, hj.partSkip, runParts, hstep]
    rfl
  have hexec : (st'.restore j.g.params.defTtl p).executed = [e] := hsent.executed
  have htiles : Tiles 0 ((st'.restore j.g.params.defTtl p).executed.map Executed.interval) p := by
    rw [hexec, List.map_cons, hsent.interval]
    exact .single (by show 0 ≤ p; omega)
  obtain ⟨hloop, hall⟩ := desyncParts_of_runParts hnet hrun htiles (by show p ≤ _; omega)
  refine ⟨⟨e, ?_, ?_, ?_, (hsent.low hm rfl).1, ?_⟩, hall⟩
  · rw [hloop, hexec]
    exact List.mem_singleton_self e
  · rw [hsent.mode]
    exact hm
  · rw [hlp, hpos]
    exact h0
  · rw [hlp, hpos]
    exact (hsent.low hm rfl).2

include hnet hj hroom in
/-- The decoy goes up to the offset of the part, and the part is executed with nothing left. -/
theorem decoy_run {info : ProtoInfo} {ttl : Int}
    (hparts : j.g.params.dp.parts = [{ part with m := .DESYNC_FAKE }, part]) (hr : part.r = 1)
    (hrand : has part.flag OFFSET_RAND = false)
    (hfake : j.g.params.dp.fakeData.data = none) (hfoff : j.g.params.dp.fakeOffset.m = .DESYNC_NONE)
    (hoff : genOffset (j.rand 1) part.pos part.flag j.buffer 0 info = (p, known)) (h0 : 0 < p)
    (hp : p < j.buffer.length) :
    (desyncParts j info ttl).loop.executed.map Executed.interval = [(0, p), (p, p)] ∧
      ¬ (desyncParts j info ttl).Cut j.buffer ∧
      Tiles 0 (desyncParts j info ttl).intervals j.buffer.length := by
  obtain ⟨st₁, e₁, hstep₁, hsent₁⟩ := @partStep_at j hnet hj hroom { part with m := .DESYNC_FAKE } p known
    ⟨0, 0, info, ttl, false, 0, []⟩ hoff (by show 0 ≤ p; omega) h0 hp
  have hinfo : st₁.info = fakeType j.buffer known := by
    rw [hsent₁.info, if_pos rfl]
    exact getTcpFake_snd _ _ hfake hfoff
  -- what the decoy leaves known does not move the offset
  have hagain : (genOffset (j.rand (st₁.currPart + 1)) part.pos part.flag j.buffer p st₁.info).1 = p := by
    have h := @genOffset_again (j.rand 1) part.pos part.flag j.buffer 0 info
      (j.rand (st₁.currPart + 1)) p hrand
    rw [hoff, ← hinfo] at h
    exact h (by show 0 ≤ p; omega)
  obtain ⟨st₂, e₂, hstep₂, hsent₂⟩ := @partStep_at j hnet hj hroom part p _
    (st₁.restore j.g.params.defTtl p) (Prod.ext hagain rfl) (Int.le_refl p) h0 hp
  obtain ⟨hlp₂, hpos₂⟩ := Prod.mk.inj hsent₂.interval
  have hrun : runParts j (rounds j.g.params.dp.parts) ⟨j.offset, 0, info, ttl, false, j.partSkip, []⟩ =
      (none, st₂.restore j.g.params.defTtl p) := by
    rw [hparts, rounds_cons { part with m := .DESYNC_FAKE } [part] hr, rounds_cons part [] hr,
      hj.offset, hj.partSkip, runParts, hstep₁]
    dsimp only
    rw [runParts, hstep₂]
    rfl
  have hexec : (st₂.restore j.g.params.defTtl p).executed = [e₁, e₂] := by
    show st₂.executed = _
    rw [hsent₂.executed]
    show st₁.executed ++ [e₂] = _
    rw [hsent₁.executed]
    rfl
  have hivs : (st₂.restore j.g.params.defTtl p).executed.map Executed.interval = [(0, p), (p, p)] := by
    rw [hexec, List.map_cons, List.map_cons, hsent₁.interval, hsent₂.interval]
    rfl
  have htiles : Tiles 0 ((st₂.restore j.g.params.defTtl p).executed.map Executed.interval) p := by
    rw [hivs]
    exact .cons (by omega) (.single (Int.le_refl p))
  obtain ⟨hloop, hall⟩ := desyncParts_of_runParts hnet hrun htiles (by show p ≤ _; omega)
  refine ⟨hloop ▸ hivs, ?_, hall⟩
  rintro ⟨e, hmem, hdis, hlt, -⟩
  rw [hloop, hexec, List.mem_cons, List.mem_singleton] at hmem
  obtain rfl | rfl := hmem
  · rw [hsent₁.mode] at hdis
    cases hdis
  · rw [hlp₂, hpos₂] at hlt
    exact absurd hlt (Int.lt_irrefl p)

end Runs

/-- **The decoy cancels the cut.** Whatever the configuration, the first data and their host: if the
offset lies within the data, then with a decoy the disorder part has nothing left to send, and without
it it has. -/
theorem desync_decoy_cancels (ttl sockTtl : Int) (cfg : JniConfig) (net : Net) (rand randTamp : ℕ → ℕ)
    (mem mem' : Bytes) (n n' bfsize : ℕ) (info' : ProtoInfo) (hfake : cfg.fakeEnabled = true)
    (hdis : cfg.disorder ≠ 0) (hrand : has cfg.mainPart.flag OFFSET_RAND = false) (hn : n ≤ bfsize)
    (hnet : net.Complete)
    (htamp : tamp randTamp bfsize (initParams ttl cfg).params.dp mem n (initProtoInfo (mem.take n) .zero) =
      some (mem', n', info'))
    (h0 : 0 < (genOffset (rand 1) cfg.mainPart.pos cfg.mainPart.flag (mem'.take n') 0 info').1)
    (hlt : (genOffset (rand 1) cfg.mainPart.pos cfg.mainPart.flag (mem'.take n') 0 info').1 <
      (mem'.take n').length) :
    ∃ run plain, desync (initParams ttl cfg) net rand randTamp mem n bfsize sockTtl = some run ∧
      desync (initParams ttl { cfg with fakeEnabled := false }) net rand randTamp mem n bfsize sockTtl =
        some plain ∧
      ¬ run.Cut (mem'.take n') ∧ Tiles 0 run.intervals (mem'.take n').length ∧
      plain.Cut (mem'.take n') ∧ Tiles 0 plain.intervals (mem'.take n').length := by
  have hroom : (mem'.take n').length ≤ bfsize :=
    Nat.le_trans (List.length_take_le n' mem') (tamp_le hn htamp)
  have hplain : ({ cfg with fakeEnabled := false } : JniConfig).mainPart = cfg.mainPart :=
    JniConfig.mainPart_plain hdis
  obtain ⟨-, hdecoy, hdecoyTiles⟩ := @decoy_run
    ⟨initParams ttl cfg, net, rand, mem'.take n', bfsize, 0, 0, 0⟩ hnet ⟨rfl, rfl, rfl⟩ hroom cfg.mainPart
    _ _ info' sockTtl (JniConfig.parts_fake hdis ttl hfake) JniConfig.mainPart_r
    hrand rfl rfl rfl h0 hlt
  obtain ⟨hcut, hcutTiles⟩ := @plain_cuts
    ⟨initParams ttl { cfg with fakeEnabled := false }, net, rand, mem'.take n', bfsize, 0, 0, 0⟩ hnet
    ⟨rfl, rfl, rfl⟩ hroom cfg.mainPart _ _ info' sockTtl
    ((JniConfig.parts_plain ttl rfl).trans (by rw [hplain])) JniConfig.mainPart_r
    (JniConfig.mainPart_isDisorder hdis) rfl h0 hlt
  refine ⟨_, _, ?_, ?_, hdecoy, hdecoyTiles, hcut, hcutTiles⟩
  · unfold desync
    rw [htamp]
    rfl
  · unfold desync
    rw [show tamp randTamp bfsize (initParams ttl { cfg with fakeEnabled := false }).params.dp mem n
      (initProtoInfo (mem.take n) .zero) = _ from htamp]
    rfl

/-- Every call succeeds. -/
def Net.good : Net where
  part _ :=
    { alloc := true, pipe := true, setttl := true, send := fun n => n, eagain := false, notsent := false }
  last n := n
  lastEagain := false

theorem Net.good_complete : Net.good.Complete :=
  ⟨fun _ => ⟨rfl, rfl, rfl, fun _ => rfl, rfl⟩, fun _ => rfl⟩

/-- The configuration of the preset `telegram`: a decoy, and the disorder at offset 1. -/
def telegramConfig : JniConfig := ciadpiStart .arm64V8a (ciadpiArgs (loadPreset "telegram") "" true)

theorem desync_decoy_cancels_telegram :
    ∃ run plain, desync (initParams 64 telegramConfig) .good (fun _ => 0) (fun _ => 0) [1, 2, 3] 3 16384 64 =
        some run ∧
      desync (initParams 64 { telegramConfig with fakeEnabled := false }) .good (fun _ => 0) (fun _ => 0)
        [1, 2, 3] 3 16384 64 = some plain ∧
      ¬ run.Cut [1, 2, 3] ∧ Tiles 0 run.intervals 3 ∧ plain.Cut [1, 2, 3] ∧ Tiles 0 plain.intervals 3 :=
  desync_decoy_cancels 64 64 telegramConfig .good (fun _ => 0) (fun _ => 0) [1, 2, 3] [1, 2, 3] 3 3 16384
    ⟨true, 0, 0, 0⟩ (by decide) (by decide) (by decide) (by decide) Net.good_complete (by decide) (by decide)
    (by decide)

theorem telegram_uncut :
    ¬ ∀ (ttl sockTtl : Int) (cfg : JniConfig) (net : Net) (rand randTamp : ℕ → ℕ) (mem mem' : Bytes)
      (n n' bfsize : ℕ) (info' : ProtoInfo), cfg.fakeEnabled = true → cfg.disorder ≠ 0 →
      has cfg.mainPart.flag OFFSET_RAND = false → n ≤ bfsize → net.Complete →
      tamp randTamp bfsize (initParams ttl cfg).params.dp mem n (initProtoInfo (mem.take n) .zero) =
        some (mem', n', info') →
      0 < (genOffset (rand 1) cfg.mainPart.pos cfg.mainPart.flag (mem'.take n') 0 info').1 →
      (genOffset (rand 1) cfg.mainPart.pos cfg.mainPart.flag (mem'.take n') 0 info').1 <
        (mem'.take n').length →
      ∃ run, desync (initParams ttl cfg) net rand randTamp mem n bfsize sockTtl = some run ∧
        run.Cut (mem'.take n') ∧ Tiles 0 run.intervals (mem'.take n').length := by
  intro h
  obtain ⟨run, hrun, hcut, -⟩ := h 64 64 telegramConfig .good (fun _ => 0) (fun _ => 0) [1, 2, 3]
    [1, 2, 3] 3 3
    16384 ⟨true, 0, 0, 0⟩ (by decide) (by decide) (by decide) (by decide) Net.good_complete (by decide)
    (by decide) (by decide)
  have hnone : (desync (initParams 64 telegramConfig) .good (fun _ => 0) (fun _ => 0)
    [1, 2, 3] 3 16384 64).any
      (fun run => decide (run.Cut [1, 2, 3])) = false := by decide
  rw [hrun] at hnone
  exact of_decide_eq_false hnone hcut

end BypassVpn.Ciadpi
