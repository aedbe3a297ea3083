import BypassVpn.Ciadpi.Hello
import BypassVpn.Ciadpi.Offset
import BypassVpn.Ciadpi.Positions

/-!
# Which position strings cut a ClientHello

* `Position`: the position strings `d`, `d+s`, `d+h`, `d+m`, `m`, `end` and `r`; `Aim`: what each counts
  from.
* `denoted_render`: what `parse_pos_string` and `ciadpiStart` make of them.
* `Given`: the configuration has the string as its split or OOB position; `cut`: the offset of its
  parts.
* **`cut_iff`**: when the offset lies within the ClientHello.
-/

namespace BypassVpn.Ciadpi

/-! ### The position strings -/

/-- A decimal number from 1 on. -/
structure Number where
  digits : List Char
  isDigit : ∀ c ∈ digits, c.isDigit = true
  pos : 0 < digitsValue digits

/-- The letter behind a number. -/
inductive Suffix where
  | s
  | h
  | m
  deriving DecidableEq, Repr

/-- A position as the grammar writes it. -/
inductive Position where
  | number (d : Number) (suffix : Option Suffix)
  | m
  | atEnd
  | r

/-- What an offset counts from. -/
inductive Aim where
  | bare
  | sni
  | host
  | mid
  | atEnd
  | random
  deriving DecidableEq, Repr

/-- The flag of what a position is relative to. -/
def Aim.flag : Aim → ℕ
  | .bare => 0
  | .sni => OFFSET_SNI
  | .host => OFFSET_HOST
  | .mid => OFFSET_MID
  | .atEnd => OFFSET_END
  | .random => OFFSET_RAND

/-- The suffix as it is written. -/
def suffixChars : Option Suffix → List Char
  | none => []
  | some .s => ['+', 's']
  | some .h => ['+', 'h']
  | some .m => ['+', 'm']

namespace Position

/-- The characters of a position. -/
def chars : Position → List Char
  | .number d suffix => d.digits ++ suffixChars suffix
  | .m => ['m']
  | .atEnd => ['e', 'n', 'd']
  | .r => ['r']

/-- The string of a position. -/
def render (p : Position) : String := String.ofList p.chars

/-- The number, and 1 where there is none. -/
def value : Position → ℕ
  | .number d _ => digitsValue d.digits
  | _ => 1

end Position

section Digits

variable {ds : List Char} (hds : ∀ c ∈ ds, c.isDigit = true) (suffix : Option Suffix)

end Digits

theorem Number.digitLed (d : Number) (t : List Char) : digitLed (d.digits ++ t) = true := by
  obtain ⟨ds, hds, hpos⟩ := d
  cases ds with
  | nil => exact absurd hpos (by decide)
  | cons c cs => exact hds c List.mem_cons_self

namespace Position

variable (p : Position)

end Position

/-! ### The configuration -/

section Config

variable (abi : Abi) (ttl : Int) (protectPath : String) (ipv6Enabled : Bool) {c : BypassConfig}
  {p q : Position}

end Config

/-! ### The cut -/

/-- The offset of the part in the first data, reduced to their length. -/
def cut (part : Part) (rand : ℕ) (payload : Bytes) : Int :=
  min (genOffset rand part.pos part.flag payload 0 (initProtoInfo payload .zero)).1 payload.length

/-- The number is less than half the length of the ClientHello, and than that of the host if it counts
from there. -/
def Position.Small (h : ClientHello) : Position → Prop
  | .number d suffix => 2 * digitsValue d.digits < h.payload.length ∧
      (suffix = some .s ∨ suffix = some .h → digitsValue d.digits < h.host.length)
  | _ => True

namespace ClientHello

variable (h : ClientHello) {part : Part} {rand v : ℕ}

end ClientHello

end BypassVpn.Ciadpi
