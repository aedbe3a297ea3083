import BypassVpn.Lib.Intervals
import BypassVpn.Ciadpi.Desync
import BypassVpn.Ciadpi.Positions

/-!
# The loop over the parts

What a round of the loop does when every call goes through, and what a whole run does.

* `Outcome.Complete`, `Net.Complete`: every call succeeds, and every `send` takes all its bytes.
* `SentWhole`, `sendPart_complete`, `partStep_first`, `partStep_next`: one round on the first data of a
  connection.
* `runParts_tiles`, **`desyncParts_tiles`**: whatever the parts, what they and the last `send` handle
  are adjacent intervals from the first byte to the last.
-/

namespace BypassVpn.Ciadpi

open Region Intervals

/-- Every call for one part succeeds. -/
structure Outcome.Complete (out : Outcome) : Prop where
  alloc : out.alloc = true
  pipe : out.pipe = true
  setttl : out.setttl = true
  send : ∀ n, out.send n = n
  notsent : out.notsent = false

/-- Every call of a `desync` succeeds, and nothing is sent short. -/
structure Net.Complete (net : Net) : Prop where
  part : ∀ k, (net.part k).Complete
  last : ∀ n, net.last n = n

/-- The first call of `desync` for the connection. -/
structure Job.First (j : Job) : Prop where
  offset : j.offset = 0
  skip : j.skip = 0
  partSkip : j.partSkip = 0

/-- The part lowers the TTL. -/
def isDisorderMode (m : Demode) : Bool := m == .DESYNC_DISORDER || m == .DESYNC_DISOOB

/-- The offsets between which the part lies. -/
def Executed.interval (e : Executed) : Int × Int := (e.lp, e.pos)

/-- The part has sent the data up to `pos`. -/
structure SentWhole (j : Job) (part : Part) (k : ℕ) (pos : Int) (st st' : Loop) (e : Executed) : Prop where
  lp : st'.lp = st.lp
  currPart : st'.currPart = st.currPart
  executed : st'.executed = st.executed ++ [e]
  mode : e.m = part.m
  interval : e.interval = (st.lp, pos)
  low : isDisorderMode part.m = true → k % 2 = 0 → e.ttl = 1 ∧ j.bytes st.lp pos <+: e.bytes
  info : st'.info = if part.m = .DESYNC_FAKE then (getTcpFake j (j.rand st.currPart) st.info).2 else st.info

variable {j : Job} {out : Outcome} {part : Part} {k : ℕ} {pos : Int} {st : Loop}

variable (k st) in
theorem sendPart_complete (hout : out.Complete) (hpos : st.lp ≤ pos)
    (hoob : isOob part.m = true → pos < j.bfsize) :
    ∃ st' e, sendPart j out (j.rand st.currPart) part k pos st = (some (pos - st.lp), st') ∧
      SentWhole j part k pos st st' e := by
  have hlen : ((pos - st.lp).toNat : Int) = pos - st.lp := Int.toNat_of_nonneg (by omega)
  have hsend : out.send (pos - st.lp).toNat = pos - st.lp := by rw [hout.send, hlen]
  have hsend1 : out.send ((pos - st.lp).toNat + 1) - 1 = pos - st.lp := by
    rw [hout.send]
    omega
  obtain ⟨m, flag, base, r, s⟩ := part
  unfold sendPart
  cases m with
  | DESYNC_NONE =>
    dsimp only
    rw [hsend]
    exact ⟨_, _, rfl, ⟨rfl, rfl, rfl, rfl, rfl, fun h => absurd h (by simp [isDisorderMode]), rfl⟩⟩
  | DESYNC_SPLIT =>
    dsimp only
    rw [hsend]
    exact ⟨_, _, rfl, ⟨rfl, rfl, rfl, rfl, rfl, fun h => absurd h (by simp [isDisorderMode]), rfl⟩⟩
  | DESYNC_DISORDER =>
    dsimp only
    rw [if_neg (by simp [hout.setttl]), if_neg (by simp), hsend]
    exact ⟨_, _, rfl, ⟨rfl, rfl, rfl, rfl, rfl, fun _ hk => ⟨if_pos hk, List.prefix_rfl⟩, rfl⟩⟩
  | DESYNC_OOB =>
    have hroom : ¬ (j.bfsize : Int) ≤ pos := Int.not_le.mpr (hoob rfl)
    dsimp only
    rw [if_neg hroom, hsend1]
    exact ⟨_, _, rfl, ⟨rfl, rfl, rfl, rfl, rfl, fun h => absurd h (by simp [isDisorderMode]), rfl⟩⟩
  | DESYNC_DISOOB =>
    have hroom : ¬ (j.bfsize : Int) ≤ pos := Int.not_le.mpr (hoob rfl)
    dsimp only
    rw [if_neg (by simp [hout.setttl]), if_pos rfl, if_neg hroom, hsend1]
    exact ⟨_, _, rfl, ⟨rfl, rfl, rfl, rfl, rfl, fun _ hk => ⟨if_pos hk, List.prefix_append _ _⟩, rfl⟩⟩
  | DESYNC_FAKE =>
    dsimp only
    rw [if_pos hout.alloc]
    by_cases heq : pos = st.lp
    · have hzero : pos - st.lp = 0 := by omega
      rw [if_pos heq, hzero]
      exact ⟨_, _, rfl, ⟨rfl, rfl, rfl, rfl, rfl, fun h => absurd h (by simp [isDisorderMode]), rfl⟩⟩
    · rw [if_neg heq, if_pos ⟨hout.pipe, hout.setttl⟩, hsend]
      exact ⟨_, _, rfl, ⟨rfl, rfl, rfl, rfl, rfl, fun h => absurd h (by simp [isDisorderMode]), rfl⟩⟩

/-- A round on the first data: nothing was sent before, so no part is passed over. -/
theorem partStep_first (hj : j.First) {off : Int × ProtoInfo}
    (hoff : genOffset (j.rand (st.currPart + 1)) part.pos part.flag j.buffer st.lp st.info = off) :
    partStep j part k st =
      if off.1 + part.s * k < 0 ∨ off.1 + part.s * k < st.lp then
        .cancel { st with currPart := st.currPart + 1, info := off.2 }
      else
        let pos := min (off.1 + part.s * k) j.buffer.length
        let sent := sendPart j (j.net.part (st.currPart + 1)) (j.rand (st.currPart + 1)) part k pos
          { st with currPart := st.currPart + 1, info := off.2 }
        afterPart j (j.net.part (st.currPart + 1)) pos st.lp sent.1 sent.2 := by
  have hskip : ¬ (((j.skip ≠ 0 ∧ off.1 + part.s * k < j.skip) ∨ st.currPart + 1 < j.partSkip) ∧
      ¬ has part.flag OFFSET_START = true) := by
    rintro ⟨h | h, -⟩
    · exact h.1 hj.skip
    · rw [hj.partSkip] at h
      omega
  have hoffset : ¬ (j.offset ≠ 0 ∧ off.1 + part.s * k < j.offset) := fun h => h.1 hj.offset
  have hcur : ¬ st.currPart + 1 = j.partSkip := by
    rw [hj.partSkip]
    omega
  unfold partStep
  dsimp only
  rw [hoff, if_neg hskip, if_neg hoffset, if_neg hcur]

variable (k) in
/-- A round of the loop: the part is executed up to its offset, or to the end of the data. -/
theorem partStep_next (hnet : j.net.Complete) (hj : j.First) {off : Int × ProtoInfo}
    (hoff : genOffset (j.rand (st.currPart + 1)) part.pos part.flag j.buffer st.lp st.info = off)
    (hge : st.lp ≤ off.1 + part.s * k) (h0 : 0 ≤ off.1 + part.s * k) (hle : st.lp ≤ j.buffer.length)
    (hpos : pos = min (off.1 + part.s * k) j.buffer.length) (hoob : isOob part.m = true → pos < j.bfsize) :
    ∃ st' e, partStep j part k st = .next (st'.restore j.g.params.defTtl pos) ∧
      SentWhole j part k pos { st with currPart := st.currPart + 1, info := off.2 } st' e := by
  have hlp : st.lp ≤ pos := by omega
  have hcancel : ¬ (off.1 + part.s * k < 0 ∨ off.1 + part.s * k < st.lp) := by omega
  obtain ⟨st', e, hsent, hwhole⟩ := sendPart_complete k { st with currPart := st.currPart + 1, info := off.2 }
    (hnet.part (st.currPart + 1)) hlp hoob
  refine ⟨{ st' with partSent := st'.currPart }, e, ?_, ⟨hwhole.lp, hwhole.currPart, hwhole.executed,
    hwhole.mode, hwhole.interval, hwhole.low, hwhole.info⟩⟩
  dsimp only at hsent
  rw [partStep_first hj hoff, if_neg hcancel, ← hpos]
  dsimp only
  rw [hsent]
  unfold afterPart
  dsimp only
  rw [if_neg (by omega), if_neg (by simp), if_neg (by simp [(hnet.part _).notsent])]

/-- A part whose offset lies before what was sent ends the loop. -/
theorem partStep_cancel (hj : j.First) {off : Int × ProtoInfo}
    (hoff : genOffset (j.rand (st.currPart + 1)) part.pos part.flag j.buffer st.lp st.info = off)
    (hlt : off.1 + part.s * k < 0 ∨ off.1 + part.s * k < st.lp) :
    partStep j part k st = .cancel { st with currPart := st.currPart + 1, info := off.2 } := by
  rw [partStep_first hj hoff, if_pos hlt]

/-- A run of the loop handles adjacent intervals, and stops within the data. -/
theorem runParts_tiles (hnet : j.net.Complete) (hj : j.First) (hroom : j.buffer.length < j.bfsize)
    (parts : List (Part × ℕ)) (st : Loop) (h0 : 0 ≤ st.lp) (hle : st.lp ≤ j.buffer.length) :
    ∃ st' es, runParts j parts st = (none, st') ∧ st'.executed = st.executed ++ es ∧
      Tiles st.lp (es.map Executed.interval) st'.lp ∧ st'.lp ≤ j.buffer.length := by
  induction parts generalizing st with
  | nil => exact ⟨st, [], rfl, (List.append_nil _).symm, .nil _, hle⟩
  | cons p parts ih =>
    obtain ⟨part, k⟩ := p
    obtain ⟨off, hoff⟩ : ∃ off,
      genOffset (j.rand (st.currPart + 1)) part.pos part.flag j.buffer st.lp st.info = off := ⟨_, rfl⟩
    by_cases hlt : off.1 + part.s * k < 0 ∨ off.1 + part.s * k < st.lp
    · refine ⟨{ st with currPart := st.currPart + 1, info := off.2 }, [], ?_,
        (List.append_nil _).symm, .nil _, hle⟩
      rw [runParts, partStep_cancel hj hoff hlt]
    · obtain ⟨st₁, e, hstep, hsent⟩ := partStep_next k hnet hj hoff (by omega) (by omega) hle rfl
        (fun _ => by omega)
      obtain ⟨st', es, hrun, hexec, htiles, hend⟩ := ih (st₁.restore j.g.params.defTtl
        (min (off.1 + part.s * k) j.buffer.length)) (by show 0 ≤ min _ _; omega) (by show min _ _ ≤ _; omega)
      refine ⟨st', e :: es, ?_, ?_, ?_, hend⟩
      · rw [runParts, hstep]
        exact hrun
      · rw [hexec]
        show st₁.executed ++ es = _
        rw [hsent.executed, List.append_assoc]
        rfl
      · rw [List.map_cons, hsent.interval]
        refine .cons ?_ htiles
        show st.lp ≤ min _ _
        omega

/-- The intervals of a run: those of the parts, and that of the last `send`. -/
def Run.intervals (run : Run) : List (Int × Int) :=
  run.loop.executed.map Executed.interval ++ run.rest.toList

theorem desyncParts_of_runParts (hnet : j.net.Complete) {info : ProtoInfo} {ttl : Int} {st' : Loop}
    (hrun : runParts j (rounds j.g.params.dp.parts)
      ⟨j.offset, 0, info, ttl, false, j.partSkip, []⟩ = (none, st'))
    (htiles : Tiles 0 (st'.executed.map Executed.interval) st'.lp) (hle : st'.lp ≤ j.buffer.length) :
    (desyncParts j info ttl).loop = st' ∧
      Tiles 0 (desyncParts j info ttl).intervals j.buffer.length := by
  unfold desyncParts Run.intervals
  dsimp only
  rw [hrun]
  dsimp only
  by_cases hlt : st'.lp < j.buffer.length
  · rw [if_pos hlt, if_neg (by rw [hnet.last]; omega)]
    exact ⟨rfl, htiles.append (.single hle)⟩
  · rw [if_neg hlt]
    refine ⟨rfl, ?_⟩
    have heq : st'.lp = j.buffer.length := by omega
    rw [← heq]
    exact htiles.append (.nil _)

/-- **Whatever the parts are, the data go out once**: in adjacent intervals from the first byte to the
last. -/
theorem desyncParts_tiles (hnet : j.net.Complete) (hj : j.First) (hroom : j.buffer.length < j.bfsize)
    (info : ProtoInfo) (ttl : Int) : Tiles 0 (desyncParts j info ttl).intervals j.buffer.length := by
  have hoffset := hj.offset
  obtain ⟨st', es, hrun, hexec, htiles, hend⟩ := runParts_tiles hnet hj hroom (rounds j.g.params.dp.parts)
    ⟨j.offset, 0, info, ttl, false, j.partSkip, []⟩ (by show 0 ≤ j.offset; omega)
    (by show j.offset ≤ _; omega)
  dsimp only at htiles
  rw [List.nil_append] at hexec
  rw [hj.offset, ← hexec] at htiles
  exact (desyncParts_of_runParts hnet hrun htiles hend).2

end BypassVpn.Ciadpi
