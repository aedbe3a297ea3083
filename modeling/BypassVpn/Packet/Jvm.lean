import Mathlib.Tactic.Ring
import BypassVpn.Lib.Region
import BypassVpn.Lib.OnesComplement

/-!
# JVM byte arrays and the packet output

The packet code works on `ByteArray`s with bounds checks and catches the exceptions they raise.

* `Bytes`, `Exn`; the array operations `aget`, `aset`, `arraycopy`, `copyOf`, `copyOfRange`, each
  failing where the JVM throws, with the region each one reads or overwrites (`aset_eq`,
  `arraycopy_eq`, `copyOfRange_eq`).
* `u16At`: the two-octet read `(a[i] and 0xFF) shl 8 or (a[i + 1] and 0xFF)` used for every port,
  length and count.
* `PacketM`: packet handlers. The state is the list of packets written so far; it survives an
  exception, as the bytes already written to an `OutputStream` do.
-/

namespace BypassVpn

open Region OnesComplement

/-- A `ByteArray`. -/
abbrev Bytes := List UInt8

/-- The exceptions (subclasses of `java.lang.Exception`) that reach a handler. -/
inductive Exn where
  | indexOutOfBounds
  | illegalArgument
  | other (name : String)
  deriving DecidableEq, Repr

/-! ### Array operations -/

/-- `a[i]`. -/
def aget (a : Bytes) (i : ℕ) : Except Exn UInt8 :=
  match a[i]? with
  | some b => pure b
  | none => throw .indexOutOfBounds

/-- `a[i] = b`. -/
def aset (a : Bytes) (i : ℕ) (b : UInt8) : Except Exn Bytes :=
  if i < a.length then pure (a.set i b) else throw .indexOutOfBounds

/-- `System.arraycopy(src, srcPos, dst, dstPos, len)`. -/
def arraycopy (src : Bytes) (srcPos : ℕ) (dst : Bytes) (dstPos len : ℕ) : Except Exn Bytes :=
  if srcPos + len ≤ src.length ∧ dstPos + len ≤ dst.length then
    pure (patch dst dstPos (slice src srcPos len))
  else throw .indexOutOfBounds

/-- `ByteArray(n)`. -/
def zeros (n : ℕ) : Bytes := List.replicate n 0

/-- `a.copyOf(n)`: truncated, or padded with zeros. -/
def copyOf (a : Bytes) (n : ℕ) : Bytes := a.take n ++ zeros (n - a.length)

/-- `a.copyOfRange(start, stop)`. -/
def copyOfRange (a : Bytes) (start stop : ℕ) : Except Exn Bytes :=
  if a.length < stop then throw .indexOutOfBounds
  else if stop < start then throw .illegalArgument
  else pure (slice a start (stop - start))

/-- The big-endian 16-bit read at `i`. -/
def u16At (a : Bytes) (i : ℕ) : Except Exn ℕ := do
  let hi ← aget a i
  let lo ← aget a (i + 1)
  pure (hi.toNat <<< 8 ||| lo.toNat)

theorem bind_eq_ok {α β : Type} {x : Except Exn α} {f : α → Except Exn β} {b : β}
    (h : x >>= f = .ok b) : ∃ a, x = .ok a ∧ f a = .ok b := by
  cases x with
  | error e => cases h
  | ok a => exact ⟨a, rfl, h⟩

theorem aget_eq {a : Bytes} {i : ℕ} (h : i < a.length) : aget a i = pure a[i] := by
  simp [aget, h]

theorem slice_one {a : Bytes} {i : ℕ} (h : i < a.length) : slice a i 1 = [a[i]] := by
  rw [slice, List.drop_eq_getElem_cons h]; rfl

theorem slice_two {a : Bytes} {i : ℕ} (h : i + 1 < a.length) : slice a i 2 = [a[i], a[i + 1]] := by
  rw [← slice_append_slice a i 1 1, slice_one (by omega), slice_one h]; rfl

theorem aset_eq {a : Bytes} {i : ℕ} (h : i < a.length) (b : UInt8) :
    aset a i b = pure (patch a i [b]) := by
  rw [aset, if_pos h, List.set_eq_take_append_cons_drop, if_pos h]
  simp [patch]

theorem arraycopy_eq {src dst : Bytes} {srcPos dstPos len : ℕ} (hs : srcPos + len ≤ src.length)
    (hd : dstPos + len ≤ dst.length) :
    arraycopy src srcPos dst dstPos len = pure (patch dst dstPos (slice src srcPos len)) :=
  if_pos ⟨hs, hd⟩

theorem copyOf_eq {a : Bytes} {n : ℕ} (h : n ≤ a.length) : copyOf a n = a.take n := by
  simp [copyOf, zeros, Nat.sub_eq_zero_of_le h]

theorem copyOfRange_eq {a : Bytes} {start stop : ℕ} (h : start ≤ stop) (hs : stop ≤ a.length) :
    copyOfRange a start stop = pure (slice a start (stop - start)) := by
  rw [copyOfRange, if_neg (by omega), if_neg (by omega)]

theorem shl_or_eq (hi lo : UInt8) : hi.toNat <<< 8 ||| lo.toNat = val [hi, lo] := by
  rw [← Nat.shiftLeft_add_eq_or_of_lt lo.toNat_lt, Nat.shiftLeft_eq, val_pair]

theorem u16At_eq {a : Bytes} {i : ℕ} (h : i + 1 < a.length) : u16At a i = pure (val (slice a i 2)) := by
  rw [slice_two h, u16At, aget_eq (by omega), aget_eq h, pure_bind, pure_bind, shl_or_eq]

theorem slice_patch_be {a : Bytes} {i : ℕ} (h : i ≤ a.length) (w n : ℕ) :
    slice (patch a i (be w n)) i w = be w n := slice_patch_eq h (length_be w n)

/-- Storing right behind an overwritten region extends it. -/
theorem aset_extend {a bs : Bytes} {i j : ℕ} (hj : j = i + bs.length) (h : j < a.length) (b : UInt8) :
    aset (patch a i bs) j b = pure (patch a i (bs ++ [b])) := by
  rw [aset_eq (by rw [length_patch (by omega)]; exact h), patch_patch_adjacent hj (by omega)]

theorem aset_aset_eq {a : Bytes} {i : ℕ} (h : i + 1 < a.length) (b c : UInt8) :
    (aset a i b >>= fun a' => aset a' (i + 1) c) = pure (patch a i [b, c]) := by
  rw [aset_eq (by omega), pure_bind, aset_extend (by rfl) h]
  rfl

/-! ### The packet output -/

/-- Packet handlers: they may throw, and the packets written stay written. -/
abbrev PacketM := ExceptT Exn (StateM (List Bytes))

/-- `output.write(buf, 0, len)` on an output that accepts every write. -/
def write (buf : Bytes) (len : ℕ) : PacketM Unit := do
  if len ≤ buf.length then modify (· ++ [buf.take len]) else throw .indexOutOfBounds

/-- A computation on arrays, inside a handler. -/
def liftArray {α : Type} (x : Except Exn α) : PacketM α := ExceptT.mk (pure x)

/-- The outcome of a handler together with all packets written, starting from `out`. -/
def PacketM.outcome {α : Type} (m : PacketM α) (out : List Bytes) : Except Exn α × List Bytes :=
  m.run.run out

section Outcome

variable {α β : Type}

@[simp] theorem outcome_pure (a : α) (out : List Bytes) :
    (pure a : PacketM α).outcome out = (pure a, out) := rfl

@[simp] theorem outcome_throw (e : Exn) (out : List Bytes) :
    (throw e : PacketM α).outcome out = (throw e, out) := rfl

theorem outcome_bind (m : PacketM α) (f : α → PacketM β) (out : List Bytes) :
    (m >>= f).outcome out = match m.outcome out with
      | (.ok a, out') => (f a).outcome out'
      | (.error e, out') => (throw e, out') := by
  simp only [PacketM.outcome, ExceptT.run_bind, StateT.run_bind]
  rcases (m.run.run out) with ⟨_ | _, _⟩ <;> rfl

theorem outcome_tryCatch (m : PacketM α) (h : Exn → PacketM α) (out : List Bytes) :
    (tryCatch m h).outcome out = match m.outcome out with
      | (.ok a, out') => (pure a, out')
      | (.error e, out') => (h e).outcome out' := by
  change PacketM.outcome (ExceptT.tryCatch m h) out = _
  simp only [PacketM.outcome, ExceptT.tryCatch, ExceptT.run, ExceptT.mk, StateT.run_bind]
  rcases (StateT.run m out) with ⟨_ | _, _⟩ <;> rfl

@[simp] theorem outcome_liftArray (x : Except Exn α) (out : List Bytes) :
    (liftArray x).outcome out = (x, out) := rfl

theorem outcome_liftArray_bind (x : Except Exn α) (f : α → PacketM β) (out : List Bytes) :
    (liftArray x >>= f).outcome out = match x with
      | .ok a => (f a).outcome out
      | .error e => (throw e, out) := by
  rw [outcome_bind, outcome_liftArray]
  cases x <;> rfl

theorem liftArray_pure_bind (a : α) (f : α → PacketM β) :
    (liftArray (pure a : Except Exn α) >>= f) = f a := rfl

theorem liftArray_bind_congr {x : Except Exn α} {f g : α → PacketM β}
    (h : ∀ a, x = .ok a → f a = g a) : liftArray x >>= f = liftArray x >>= g := by
  cases x with
  | error e => rfl
  | ok a => exact h a rfl

theorem outcome_write {buf : Bytes} {len : ℕ} (h : len ≤ buf.length) (out : List Bytes) :
    (write buf len).outcome out = (pure (), out ++ [buf.take len]) := by
  rw [write, if_pos h]; rfl

theorem outcome_write_bind (buf : Bytes) (f : Unit → PacketM β) (out : List Bytes) :
    (write buf buf.length >>= f).outcome out = (f ()).outcome (out ++ [buf]) := by
  rw [outcome_bind, outcome_write (Nat.le_refl _), List.take_length]
  rfl

end Outcome

end BypassVpn
