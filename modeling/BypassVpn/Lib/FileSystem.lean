import Mathlib.Data.List.Basic
import Mathlib.Logic.Function.Basic

/-!
# Files, their names and positioned writes

A disk keeps files under inode numbers; a directory gives names to some of them. A file whose name is
removed stays where it is: who holds its number can go on writing to it.

* `Disk`, `create`, `append`, `writeAt`, `setLength`, `unlink`; `read`, `text`: what a name shows.
* `overwrite`, `resize`: the content after a positioned write and after a change of length;
  **`overwrite_length`**: a write at the end appends.
* What each operation leaves of an entry and of a text.
-/

namespace FileSystem

variable {ν β : Type*}

/-! ### Contents -/

/-- `bs` written at `off`; a gap before it is filled with `zero`. -/
def overwrite (zero : β) (content : List β) (off : ℕ) (bs : List β) : List β :=
  content.take off ++ List.replicate (off - content.length) zero ++ bs ++ content.drop (off + bs.length)

/-- `content` cut, or filled with `zero`, to the length `len`. -/
def resize (zero : β) (content : List β) (len : ℕ) : List β :=
  content.take len ++ List.replicate (len - content.length) zero

theorem resize_zero_length (zero : β) (content : List β) : resize zero content 0 = [] := by
  unfold resize
  rw [List.take_zero, Nat.zero_sub, List.replicate_zero, List.append_nil]

/-- **A write at the end appends.** -/
theorem overwrite_length (zero : β) (content bs : List β) :
    overwrite zero content content.length bs = content ++ bs := by
  have hdrop : content.drop (content.length + bs.length) = [] :=
    List.drop_eq_nil_of_le (Nat.le_add_right _ _)
  unfold overwrite
  rw [List.take_length, Nat.sub_self, List.replicate_zero, List.append_nil, hdrop, List.append_nil]

/-! ### Disks -/

/-- Files by inode number, and the names of those that have one. -/
structure Disk (ν β : Type*) where
  /-- How many files there have been. -/
  inodes : ℕ
  content : ℕ → List β
  entry : ν → Option ℕ

namespace Disk

variable (d : Disk ν β)

/-- No file. -/
def empty : Disk ν β := ⟨0, fun _ => [], fun _ => none⟩

/-- The file under the name `n`, made if there is none, and its number. -/
def create [DecidableEq ν] (n : ν) : Disk ν β × ℕ :=
  match d.entry n with
  | some i => (d, i)
  | none =>
    ({ inodes := d.inodes + 1
       content := Function.update d.content d.inodes []
       entry := Function.update d.entry n (some d.inodes) }, d.inodes)

/-- Octets are added at the end of a file. -/
def append (i : ℕ) (bs : List β) : Disk ν β :=
  { d with content := Function.update d.content i (d.content i ++ bs) }

/-- Octets are written at an offset; a gap is filled with `zero`. -/
def writeAt (zero : β) (i off : ℕ) (bs : List β) : Disk ν β :=
  { d with content := Function.update d.content i (overwrite zero (d.content i) off bs) }

/-- Cuts or fills the file to `len`. -/
def setLength (zero : β) (i len : ℕ) : Disk ν β :=
  { d with content := Function.update d.content i (resize zero (d.content i) len) }

/-- Removes the name, not the file. -/
def unlink [DecidableEq ν] (n : ν) : Disk ν β := { d with entry := Function.update d.entry n none }

/-- The content of a file, if it exists. -/
def read (n : ν) : Option (List β) := (d.entry n).map d.content

/-- What a reader of `n` sees, nothing if there is no such file. -/
def text (n : ν) : List β := (d.read n).getD []

variable {d} {n m : ν} {i : ℕ}

theorem text_of_entry (h : d.entry n = some i) : d.text n = d.content i := by
  unfold text read
  rw [h, Option.map_some, Option.getD_some]

theorem text_of_no_entry (h : d.entry n = none) : d.text n = [] := by
  unfold text read
  rw [h, Option.map_none, Option.getD_none]

theorem append_text (h : d.entry n = some i) (bs : List β) : (d.append i bs).text n = d.text n ++ bs := by
  have he : (d.append i bs).entry n = some i := h
  rw [text_of_entry he, text_of_entry h]
  exact Function.update_self i _ _

theorem writeAt_text (zero : β) (h : d.entry n = some i) (off : ℕ) (bs : List β) :
    (d.writeAt zero i off bs).text n = overwrite zero (d.text n) off bs := by
  have he : (d.writeAt zero i off bs).entry n = some i := h
  rw [text_of_entry he, text_of_entry h]
  exact Function.update_self i _ _

theorem setLength_zero_text (zero : β) (h : d.entry n = some i) : (d.setLength zero i 0).text n = [] := by
  have he : (d.setLength zero i 0).entry n = some i := h
  rw [text_of_entry he, ← resize_zero_length zero (d.content i)]
  exact Function.update_self i _ _

section Names

variable [DecidableEq ν]

theorem create_of_entry (h : d.entry n = some i) : d.create n = (d, i) := by
  unfold create
  rw [h]

theorem create_entry (d : Disk ν β) (n : ν) : (d.create n).1.entry n = some (d.create n).2 := by
  cases h : d.entry n with
  | some i => rw [create_of_entry h, h]
  | none =>
    unfold create
    rw [h]
    exact Function.update_self n _ _

theorem create_text (d : Disk ν β) (n : ν) : (d.create n).1.text n = d.text n := by
  cases h : d.entry n with
  | some i => rw [create_of_entry h]
  | none =>
    rw [text_of_entry (create_entry d n), text_of_no_entry h]
    unfold create
    rw [h]
    exact Function.update_self d.inodes _ _

theorem unlink_entry (h : n ≠ m) (d : Disk ν β) : (d.unlink m).entry n = d.entry n :=
  Function.update_of_ne h _ _

theorem unlink_text (h : n ≠ m) (d : Disk ν β) : (d.unlink m).text n = d.text n := by
  unfold text read
  rw [unlink_entry h]
  rfl

end Names

end Disk

end FileSystem
