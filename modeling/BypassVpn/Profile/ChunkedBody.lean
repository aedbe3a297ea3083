import Mathlib.Data.Bool.AllAny
import BypassVpn.Profile.HttpBody
import Mathlib.Data.List.Infix
import Mathlib.Data.Nat.Digits.Defs

/-!
# Chunked replies

* `Head`, `Chunk`, `response`: an HTTP/1.1 reply in the chunked coding, octet by octet.
* `decoded_ascii`, `decoded_around`: the characters of octets around ASCII.
* `readLine_spec`, `fill_spec`, `readHeaders_spec`, `readChunks_spec`: what each loop takes off the
  reader, however much its reads find.
* `readHttpBody_plain`: without chunks, every body comes back.
* **`readHttpBody_chunked_iff`**: the body is read, whatever its chunks are, exactly when it is ASCII.
-/

namespace BypassVpn.Profile

open Utf8

/-! ### The format -/

def CRLF : Bytes := [13, 10]

/-- The value of a hexadecimal digit. -/
def hexDigit (b : UInt8) : Option ℕ :=
  if 48 ≤ b.toNat ∧ b.toNat ≤ 57 then some (b.toNat - 48)
  else if 65 ≤ b.toNat ∧ b.toNat ≤ 70 then some (b.toNat - 55)
  else if 97 ≤ b.toNat ∧ b.toNat ≤ 102 then some (b.toNat - 87)
  else none

/-- The number that hexadecimal digits denote; leading zeros and both cases are allowed. -/
def hexNumeral (ds : Bytes) : Option ℕ :=
  (ds.mapM hexDigit).map fun xs => xs.foldl (fun n d => 16 * n + d) 0

/-- A chunk: some octets, and their count in hexadecimal. -/
structure Chunk where
  digits : Bytes
  data : Bytes
  nonempty : data ≠ []
  size : hexNumeral digits = some data.length

/-- A chunk on the wire. -/
def Chunk.encode (c : Chunk) : Bytes := c.digits ++ (CRLF ++ (c.data ++ CRLF))

/-- The chunks and the last one, which is empty. -/
def encodeChunks (chunks : List Chunk) : Bytes := chunks.flatMap Chunk.encode ++ (48 :: CRLF ++ CRLF)

/-- A letter in lower case. -/
def asciiLower (b : UInt8) : UInt8 := if 65 ≤ b.toNat ∧ b.toNat ≤ 90 then b + 32 else b

/-- A field line `Transfer-Encoding` that names the coding `chunked`, in any case. -/
def ChunkedLine (line : Bytes) : Prop :=
  ∃ name before coding after, line = name ++ (58 :: before ++ (coding ++ after)) ∧
    name.map asciiLower = utf8 "transfer-encoding".toList ∧
    coding.map asciiLower = utf8 "chunked".toList

/-- The status line and the field lines of a reply in the chunked coding. -/
structure Head where
  lines : List Bytes
  line : ∀ l ∈ lines, l ≠ [] ∧ 10 ∉ l ∧ 13 ∉ l
  chunked : ∃ l ∈ lines, ChunkedLine l

/-- A response with a chunked body. -/
def response (head : Head) (chunks : List Chunk) : Bytes :=
  head.lines.flatMap (fun l => l ++ CRLF) ++ (CRLF ++ encodeChunks chunks)

/-! ### Characters of octets -/

/-- ASCII octets as characters. -/
def asText (bs : Bytes) : Text := bs.map fun b => UInt16.ofNat b.toNat

/-- Octets below 128. -/
def AsciiOctets (bs : Bytes) : Prop := ∀ b ∈ bs, b.toNat < 128

theorem decoded_ascii {m : Bytes} (hm : AsciiOctets m) (b : Bytes) :
    decoded (m ++ b) = asText m ++ decoded b := by
  induction m with
  | nil => rfl
  | cons x m ih =>
    obtain ⟨hx, hm⟩ := List.forall_mem_cons.mp hm
    have hunits : units x.toNat = [UInt16.ofNat x.toNat] := if_pos (by omega)
    have ih := ih hm
    unfold decoded at ih ⊢
    rw [List.cons_append, decode_none_ascii hx, List.flatMap_cons, hunits, ih]
    rfl

theorem decoded_around {m : Bytes} (hm : AsciiOctets m) (hne : m ≠ []) (a b : Bytes) :
    decoded (a ++ (m ++ b)) = decoded a ++ (asText m ++ decoded b) := by
  obtain ⟨x, m, rfl⟩ := List.exists_cons_of_ne_nil hne
  obtain ⟨hx, hm⟩ := List.forall_mem_cons.mp hm
  have hunits : units x.toNat = [UInt16.ofNat x.toNat] := if_pos (by omega)
  have htail := decoded_ascii hm b
  unfold decoded at htail ⊢
  rw [List.cons_append, decode_ascii hx, List.flatMap_append, List.flatMap_cons, hunits, htail]
  rfl

theorem decoded_utf8 (s : List Char) (b : Bytes) : decoded (utf8 s ++ b) = utf16 s ++ decoded b := by
  rw [decoded, decode_utf8, List.flatMap_append, List.flatMap_map]
  rfl

theorem asciiOctets_crlf : AsciiOctets CRLF := List.all_iff_forall_prop.mp (by decide)

theorem mem_units {c : UInt16} {n : ℕ} (h : c ∈ units n) (hc : c.toNat < 0x80) : n = c.toNat := by
  unfold units at h
  split_ifs at h with hn
  · rw [List.mem_singleton.mp h, UInt16.toNat_ofNat', Nat.mod_eq_of_lt (by omega)]
  · simp only [List.mem_cons, List.not_mem_nil, or_false] at h
    rcases h with rfl | rfl
    · rw [UInt16.toNat_ofNat'] at hc
      omega
    · rw [UInt16.toNat_ofNat'] at hc
      omega

theorem isEol_decoded {l : Bytes} (h10 : 10 ∉ l) (h13 : 13 ∉ l) : ∀ c ∈ decoded l, isEol c = false := by
  intro c hc
  obtain ⟨n, hn, hcn⟩ := List.mem_flatMap.mp hc
  rw [Bool.eq_false_iff]
  intro heol
  have hcases : c = 10 ∨ c = 13 := by simpa [isEol, LF, CR] using heol
  rcases hcases with rfl | rfl
  · obtain rfl := mem_units hcn (by decide)
    obtain ⟨b, hb, hb10⟩ := mem_of_mem_decode hn (by decide)
    obtain rfl : b = 10 := UInt8.toNat_inj.mp hb10
    exact h10 hb
  · obtain rfl := mem_units hcn (by decide)
    obtain ⟨b, hb, hb13⟩ := mem_of_mem_decode hn (by decide)
    obtain rfl : b = 13 := UInt8.toNat_inj.mp hb13
    exact h13 hb

theorem decoded_ne_nil {l : Bytes} (h : l ≠ []) : decoded l ≠ [] := by
  intro heq
  obtain ⟨n, ns, hns⟩ := List.exists_cons_of_ne_nil (decode_ne_nil (.inr h) : decode none l ≠ [])
  rw [decoded, hns, List.flatMap_cons] at heq
  have hunits := (List.append_eq_nil_iff.mp heq).1
  unfold units at hunits
  split_ifs at hunits

/-! ### The reader -/

theorem ahead_line (rest : Text) (found : ℕ → ℕ) : (Reader.mk (LF :: rest) true found).ahead = rest := rfl

theorem readLine_spec {r : Reader} {line rest : Text} (h : r.ahead = line ++ CR :: LF :: rest)
    (hl : ∀ c ∈ line, isEol c = false) : r.readLine = (some line, ⟨LF :: rest, true, r.found⟩) := by
  have hne : r.ahead ≠ [] := by simp [h]
  have hp : ∀ c ∈ line, (!isEol c) = true := fun c hc => by rw [hl c hc]; rfl
  have hcr : (!isEol CR) = false := by decide
  rw [Reader.readLine, if_neg hne, h, List.takeWhile_append_of_pos hp, List.dropWhile_append_of_pos hp,
    List.takeWhile_cons, List.dropWhile_cons, hcr]
  simp

theorem fill_spec {fuel size : ℕ} {r : Reader} {buf : Text} (hf : size - buf.length ≤ fuel) :
    ∃ r', fill fuel r size buf = (buf ++ r.ahead.take (size - buf.length), r') ∧
      r'.ahead = r.ahead.drop (size - buf.length) := by
  induction fuel generalizing r buf with
  | zero =>
    rw [fill, Nat.le_zero.mp hf]
    exact ⟨r, by simp, rfl⟩
  | succ fuel ih =>
    rw [fill]
    by_cases hlt : buf.length < size
    swap
    · rw [if_neg hlt, Nat.sub_eq_zero_of_le (Nat.le_of_not_lt hlt)]
      exact ⟨r, by simp, rfl⟩
    rw [if_pos hlt, Reader.read]
    by_cases hne : r.ahead = []
    · rw [if_pos hne, hne]
      exact ⟨{ r with rest := [], skipLF := false }, by simp, by simp [Reader.ahead]⟩
    rw [if_neg hne]
    obtain ⟨n, hn⟩ : ∃ n, min (size - buf.length) (max 1 (r.found 0)) = n := ⟨_, rfl⟩
    have hpos : 1 ≤ r.ahead.length := List.length_pos_iff.mpr hne
    have hlen : (buf ++ r.ahead.take n).length = buf.length + min n r.ahead.length := by
      rw [List.length_append, List.length_take]
    have hrest : size - (buf ++ r.ahead.take n).length ≤ fuel := by omega
    obtain ⟨r', hr', hahead⟩ := @ih ⟨r.ahead.drop n, false, fun i => r.found (i + 1)⟩ _ hrest
    have hdrop : (Reader.mk (r.ahead.drop n) false fun i => r.found (i + 1)).ahead = r.ahead.drop n := rfl
    rw [hdrop, hlen] at hr' hahead
    dsimp only
    rw [hn]
    refine ⟨r', ?_, ?_⟩
    · rw [hr', List.append_assoc]
      congr 2
      by_cases hle : n ≤ r.ahead.length
      · rw [show size - buf.length = n + (size - (buf.length + min n r.ahead.length)) by omega, List.take_add]
      · rw [List.take_of_length_le (by omega), List.drop_eq_nil_of_le (by omega), List.take_nil,
          List.append_nil, List.take_of_length_le (by omega)]
    · rw [hahead, List.drop_drop]
      by_cases hle : n ≤ r.ahead.length
      · congr 1
        omega
      · rw [List.drop_eq_nil_of_le (by omega), List.drop_eq_nil_of_le (by omega)]

/-! ### The headers -/

theorem readHeaders_spec {lines : List Text} (hlines : ∀ l ∈ lines, l ≠ [] ∧ ∀ c ∈ l, isEol c = false)
    {fuel : ℕ} (hf : lines.length < fuel) {r : Reader} {rest : Text}
    (h : r.ahead = lines.flatMap (fun l => l ++ [CR, LF]) ++ CR :: LF :: rest) (chunked : Bool) :
    ∃ r', readHeaders fuel r chunked = some (chunked || lines.any announcesChunked, r') ∧
      r'.rest = LF :: rest ∧ r'.ahead = rest := by
  induction lines generalizing fuel r chunked with
  | nil =>
    obtain ⟨fuel, rfl⟩ : ∃ k, fuel = k + 1 := ⟨fuel - 1, by omega⟩
    have hline : r.readLine = (some [], ⟨LF :: rest, true, r.found⟩) :=
      readLine_spec h fun c hc => absurd hc List.not_mem_nil
    rw [readHeaders, hline]
    exact ⟨⟨LF :: rest, true, r.found⟩, by simp, rfl, rfl⟩
  | cons l lines ih =>
    obtain ⟨fuel, rfl⟩ : ∃ k, fuel = k + 1 := ⟨fuel - 1, by omega⟩
    obtain ⟨⟨hne, heol⟩, hlines⟩ := List.forall_mem_cons.mp hlines
    rw [List.flatMap_cons, List.append_assoc, List.append_assoc, List.cons_append, List.cons_append,
      List.nil_append] at h
    have hline := readLine_spec h heol
    have hf' : lines.length < fuel := Nat.lt_of_succ_lt_succ hf
    obtain ⟨r', hr', hrest, hahead⟩ := ih hlines hf' (ahead_line _ r.found) (chunked || announcesChunked l)
    refine ⟨r', ?_, hrest, hahead⟩
    rw [readHeaders, hline]
    simp only [hne, if_false]
    rw [hr', List.any_cons, Bool.or_assoc]

theorem decoded_lines (lines : List Bytes) (b : Bytes) :
    decoded (lines.flatMap (fun l => l ++ CRLF) ++ b) =
      (lines.map decoded).flatMap (fun l => l ++ [CR, LF]) ++ decoded b := by
  induction lines with
  | nil => rfl
  | cons l lines ih =>
    rw [List.flatMap_cons, List.append_assoc, List.append_assoc,
      decoded_around asciiOctets_crlf (by decide), ih]
    simp [asText, CRLF, CR, LF]

theorem lowerCase_ascii : ∀ n < 256, (asciiLower (UInt8.ofNat n)).toNat < 128 →
    n < 128 ∧ lowerCase (UInt16.ofNat n) = UInt16.ofNat (asciiLower (UInt8.ofNat n)).toNat := by
  decide +kernel

theorem map_lowerCase {bs : Bytes} {s : List Char} (hs : Ascii s) (h : bs.map asciiLower = utf8 s) :
    AsciiOctets bs ∧ (asText bs).map lowerCase = utf16 s := by
  rw [utf8_of_ascii hs] at h
  induction s generalizing bs with
  | nil =>
    obtain rfl := List.map_eq_nil_iff.mp h
    exact ⟨fun b hb => absurd hb List.not_mem_nil, rfl⟩
  | cons c s ih =>
    obtain ⟨hc, hs⟩ := List.forall_mem_cons.mp hs
    obtain ⟨b, bs, rfl⟩ : ∃ b bs', bs = b :: bs' := by
      cases bs with
      | nil => cases h
      | cons b bs => exact ⟨b, bs, rfl⟩
    obtain ⟨hb, hbs⟩ := List.cons.inj h
    obtain ⟨hlow, htext⟩ := ih hs hbs
    have hnat : (asciiLower (UInt8.ofNat b.toNat)).toNat = c.toNat := by
      rw [UInt8.ofNat_toNat, hb, toNat_octet (by omega)]
    obtain ⟨hb128, hlower⟩ := lowerCase_ascii b.toNat b.toNat_lt (by omega)
    refine ⟨List.forall_mem_cons.mpr ⟨hb128, hlow⟩, ?_⟩
    have hunits : units c.toNat = [UInt16.ofNat c.toNat] := if_pos (by omega)
    unfold asText utf16 at htext ⊢
    rw [List.map_cons, List.map_cons, htext, hlower, hnat, List.flatMap_cons, hunits]
    rfl

theorem ascii_transferEncoding : Ascii "transfer-encoding".toList :=
  List.all_iff_forall_prop.mp (by decide +kernel)

theorem ascii_chunked : Ascii "chunked".toList := List.all_iff_forall_prop.mp (by decide +kernel)

theorem announcesChunked_of_line {l : Bytes} (h : ChunkedLine l) : announcesChunked (decoded l) = true := by
  obtain ⟨name, before, coding, after, rfl, hname, hcoding⟩ := h
  obtain ⟨hn, hnl⟩ := map_lowerCase ascii_transferEncoding hname
  obtain ⟨hc, hcl⟩ := map_lowerCase ascii_chunked hcoding
  have hne : coding ≠ [] := by
    rintro rfl
    cases hcoding
  have hcolon : AsciiOctets [58] := List.all_iff_forall_prop.mp (by decide)
  rw [announcesChunked, Bool.and_eq_true]
  constructor
  · rw [decoded_ascii hn, List.map_append, hnl, text]
    exact List.isPrefixOf_iff_prefix.mpr (List.prefix_append _ _)
  · rw [← List.append_assoc, decoded_around hc hne, List.map_append, List.map_append, hcl, List.any_eq_true]
    refine ⟨utf16 "chunked".toList ++ (decoded after).map lowerCase, ?_, ?_⟩
    · exact (List.mem_tails _ _).mpr (List.suffix_append _ _)
    · exact List.isPrefixOf_iff_prefix.mpr (List.prefix_append _ _)

theorem length_le_lines (lines : List Text) :
    lines.length ≤ (lines.flatMap fun l => l ++ [CR, LF]).length := by
  induction lines with
  | nil => simp
  | cons l lines ih =>
    simp only [List.flatMap_cons, List.length_append, List.length_cons, List.length_nil] at ih ⊢
    omega

theorem decodedLines_ok {lines : List Bytes} (h : ∀ l ∈ lines, l ≠ [] ∧ 10 ∉ l ∧ 13 ∉ l) :
    ∀ l ∈ lines.map decoded, l ≠ [] ∧ ∀ c ∈ l, isEol c = false := by
  intro l hl
  obtain ⟨bs, hbs, rfl⟩ := List.mem_map.mp hl
  obtain ⟨hne, h10, h13⟩ := h bs hbs
  exact ⟨decoded_ne_nil hne, isEol_decoded h10 h13⟩

/-- **What is read behind the header lines**: one of the two loops, in front of the body. -/
theorem readHttpBody_lines {lines : List Bytes} (h : ∀ l ∈ lines, l ≠ [] ∧ 10 ∉ l ∧ 13 ∉ l) (body : Bytes)
    (found : ℕ → ℕ) :
    ∃ r fuel, r.ahead = decoded body ∧ r.ahead.length < fuel ∧
      readHttpBody (Reader.of (lines.flatMap (fun l => l ++ CRLF) ++ (CRLF ++ body)) found) =
        some (if (lines.map decoded).any announcesChunked then readChunks fuel r []
          else readToEnd fuel r []) := by
  have htext : decoded (lines.flatMap (fun l => l ++ CRLF) ++ (CRLF ++ body)) =
      (lines.map decoded).flatMap (fun l => l ++ [CR, LF]) ++ CR :: LF :: decoded body := by
    rw [decoded_lines, decoded_ascii asciiOctets_crlf]
    rfl
  generalize lines.flatMap (fun l => l ++ CRLF) ++ (CRLF ++ body) = bs at htext ⊢
  have hfuel : (lines.map decoded).length < (Reader.of bs found).rest.length + 1 := by
    have hle := length_le_lines (lines.map decoded)
    rw [Reader.of, htext, List.length_append]
    omega
  obtain ⟨r, hr, hrest, hahead⟩ := readHeaders_spec (decodedLines_ok h) hfuel
    (show (Reader.of bs found).ahead = _ from htext) false
  refine ⟨r, r.rest.length + 1, hahead, ?_, ?_⟩
  · rw [hahead, hrest, List.length_cons]
    omega
  · rw [readHttpBody, hr]
    rfl

/-- **Every reply in the chunked coding is taken for one.** -/
theorem readHttpBody_response (head : Head) (chunks : List Chunk) (found : ℕ → ℕ) :
    ∃ r fuel, r.ahead = decoded (encodeChunks chunks) ∧ r.ahead.length < fuel ∧
      readHttpBody (Reader.of (response head chunks) found) = some (readChunks fuel r []) := by
  obtain ⟨r, fuel, hahead, hf, hr⟩ := readHttpBody_lines head.line (encodeChunks chunks) found
  have hany : (head.lines.map decoded).any announcesChunked = true := by
    obtain ⟨l, hl, hch⟩ := head.chunked
    exact List.any_eq_true.mpr ⟨decoded l, List.mem_map_of_mem hl, announcesChunked_of_line hch⟩
  rw [if_pos hany] at hr
  exact ⟨r, fuel, hahead, hf, hr⟩

/-! ### A reply without chunks -/

theorem readToEnd_spec {fuel : ℕ} {r : Reader} (hf : r.ahead.length < fuel) (sb : Text) :
    readToEnd fuel r sb = sb ++ r.ahead := by
  induction fuel generalizing r sb with
  | zero => omega
  | succ fuel ih =>
    rw [readToEnd, Reader.readChar]
    obtain ⟨cs, hcs⟩ : ∃ cs, r.ahead = cs := ⟨_, rfl⟩
    rw [hcs] at hf ⊢
    cases cs with
    | nil => simp
    | cons c cs =>
      have hahead : (Reader.mk cs false r.found).ahead = cs := rfl
      dsimp only
      rw [ih (by rw [hahead]; exact Nat.lt_of_succ_lt_succ hf), hahead, List.append_assoc]
      rfl

/-- **A body that ends with the stream comes back whatever its characters are.** -/
theorem readHttpBody_plain {lines : List Bytes} (hlines : ∀ l ∈ lines, l ≠ [] ∧ 10 ∉ l ∧ 13 ∉ l)
    (hplain : (lines.map decoded).any announcesChunked = false) (body : List Char) (found : ℕ → ℕ) :
    readHttpBody (Reader.of (lines.flatMap (fun l => l ++ CRLF) ++ (CRLF ++ utf8 body)) found) =
      some (utf16 body) := by
  obtain ⟨r, fuel, hahead, hf, hr⟩ := readHttpBody_lines hlines (utf8 body) found
  have hbody := decoded_utf8 body []
  rw [List.append_nil] at hbody
  rw [hr, if_neg (by rw [hplain]; exact Bool.false_ne_true), readToEnd_spec hf, List.nil_append,
    hahead, hbody]
  exact congrArg some (List.append_nil _)

/-! ### The chunks -/

theorem hexDigit_spec : ∀ n < 256, hexDigit (UInt8.ofNat n) ≠ none →
    0x30 ≤ n ∧ n < 128 ∧ isEol (UInt16.ofNat n) = false ∧ isBlankUnit (UInt16.ofNat n) = false ∧
      digit16 (UInt16.ofNat n) = hexDigit (UInt8.ofNat n) := by
  decide +kernel

theorem mapM_digits {ds : Bytes} {xs : List ℕ} (h : ds.mapM hexDigit = some xs) :
    (∀ b ∈ ds, hexDigit b ≠ none) ∧ (asText ds).mapM digit16 = some xs := by
  induction ds generalizing xs with
  | nil => exact ⟨fun b hb => absurd hb List.not_mem_nil, h⟩
  | cons b ds ih =>
    rw [List.mapM_cons] at h
    obtain ⟨x, hx, h⟩ := Option.bind_eq_some_iff.mp h
    obtain ⟨xs', hxs, h⟩ := Option.bind_eq_some_iff.mp h
    obtain rfl := Option.some.inj h
    obtain ⟨hall, htext⟩ := ih hxs
    have hb : hexDigit b ≠ none := by rw [hx]; exact Option.some_ne_none x
    obtain ⟨-, -, -, -, hdigit⟩ := hexDigit_spec b.toNat b.toNat_lt (by rw [UInt8.ofNat_toNat]; exact hb)
    refine ⟨List.forall_mem_cons.mpr ⟨hb, hall⟩, ?_⟩
    rw [UInt8.ofNat_toNat, hx] at hdigit
    unfold asText at htext ⊢
    rw [List.map_cons, List.mapM_cons, hdigit, htext]
    rfl

theorem trim_eq_self {s : Text} (h : ∀ c ∈ s, isBlankUnit c = false) : trim s = s := by
  have hdrop : ∀ l : Text, (∀ c ∈ l, isBlankUnit c = false) → l.dropWhile isBlankUnit = l := by
    intro l hl
    cases l with
    | nil => rfl
    | cons c l => rw [List.dropWhile_cons, hl c List.mem_cons_self]; rfl
  rw [trim, hdrop s h, hdrop s.reverse fun c hc => h c (List.mem_reverse.mp hc), List.reverse_reverse]

theorem toIntOrNull16_digits {ds : Bytes} {n : ℕ} (h : hexNumeral ds = some n) (hne : ds ≠ []) :
    AsciiOctets ds ∧ (∀ c ∈ asText ds, isEol c = false) ∧
      toIntOrNull16 (trim (asText ds)) = if n < 2 ^ 31 then some (n : ℤ) else none := by
  rw [hexNumeral] at h
  obtain ⟨xs, hxs, hn⟩ := Option.map_eq_some_iff.mp h
  obtain ⟨hall, htext⟩ := mapM_digits hxs
  have hspec : ∀ b ∈ ds, 0x30 ≤ b.toNat ∧ b.toNat < 128 ∧ isEol (UInt16.ofNat b.toNat) = false ∧
      isBlankUnit (UInt16.ofNat b.toNat) = false := by
    intro b hb
    obtain ⟨h1, h2, h3, h4, -⟩ := hexDigit_spec b.toNat b.toNat_lt
      (by rw [UInt8.ofNat_toNat]; exact hall b hb)
    exact ⟨h1, h2, h3, h4⟩
  refine ⟨fun b hb => (hspec b hb).2.1, ?_, ?_⟩
  · intro c hc
    obtain ⟨b, hb, rfl⟩ := List.mem_map.mp hc
    exact (hspec b hb).2.2.1
  · rw [trim_eq_self]
    swap
    · intro c hc
      obtain ⟨b, hb, rfl⟩ := List.mem_map.mp hc
      exact (hspec b hb).2.2.2
    obtain ⟨b, ds, rfl⟩ := List.exists_cons_of_ne_nil hne
    have hvalue : value16 (asText (b :: ds)) = some n := by rw [value16, htext, ← hn]; rfl
    have hsign : ¬ (UInt16.ofNat b.toNat).toNat < 0x30 := by
      have := hspec b List.mem_cons_self
      rw [UInt16.toNat_ofNat']
      omega
    rw [asText, List.map_cons] at hvalue ⊢
    rw [toIntOrNull16, if_neg hsign, hvalue]
    rfl

/-- One chunk: as many characters are taken as the size counts octets. -/
theorem readChunks_chunk {digits : Bytes} {n : ℕ} (hsize : hexNumeral digits = some n) (hne : digits ≠ [])
    (hpos : 0 < n) (hint : n < 2 ^ 31) {r : Reader} {rest : Text}
    (h : r.ahead = asText digits ++ CR :: LF :: rest) (fuel : ℕ) (sb : Text) :
    ∃ r' : Reader, r'.ahead = rest.drop n ∧
      readChunks (fuel + 1) r sb = readChunks fuel r'.readLine.2 (sb ++ rest.take n) := by
  obtain ⟨-, heol, hint16⟩ := toIntOrNull16_digits hsize hne
  obtain ⟨r', hr', hahead⟩ := @fill_spec n n ⟨LF :: rest, true, r.found⟩ [] (Nat.le_refl _)
  refine ⟨r', hahead, ?_⟩
  rw [readChunks, readLine_spec h heol]
  dsimp only
  rw [hint16, if_pos hint]
  dsimp only
  rw [if_neg (by omega), Int.toNat_natCast, hr']
  rfl

theorem readChunks_extends (fuel : ℕ) (r : Reader) (sb : Text) : sb <+: readChunks fuel r sb := by
  induction fuel generalizing r sb with
  | zero => exact List.prefix_rfl
  | succ fuel ih =>
    rw [readChunks]
    split
    · exact List.prefix_rfl
    split
    · exact List.prefix_rfl
    split_ifs
    · exact List.prefix_rfl
    · exact (List.prefix_append _ _).trans (ih _ _)

theorem digits_ne_nil (c : Chunk) : c.digits ≠ [] := by
  intro h
  have hsize := c.size
  rw [h] at hsize
  have hlen : 0 = c.data.length := Option.some.inj hsize
  exact c.nonempty (List.eq_nil_of_length_eq_zero hlen.symm)

/-- The text of a chunk: its size line, and what the decoder makes of the rest. -/
theorem decoded_chunk (c : Chunk) (chunks : List Chunk) :
    decoded (encodeChunks (c :: chunks)) =
      asText c.digits ++ CR :: LF :: decoded (c.data ++ (CRLF ++ encodeChunks chunks)) := by
  have hdigits := (toIntOrNull16_digits c.size (digits_ne_nil c)).1
  have hencode : encodeChunks (c :: chunks) =
      c.digits ++ (CRLF ++ (c.data ++ (CRLF ++ encodeChunks chunks))) := by
    simp only [encodeChunks, List.flatMap_cons, Chunk.encode, List.append_assoc]
  rw [hencode, decoded_ascii hdigits, decoded_ascii asciiOctets_crlf]
  rfl

/-- **Chunks of ASCII are read exactly.** -/
theorem readChunks_ascii {chunks : List Chunk}
    (hc : ∀ c ∈ chunks, AsciiOctets c.data ∧ c.data.length < 2 ^ 31) {r : Reader}
    (h : r.ahead = decoded (encodeChunks chunks)) {fuel : ℕ} (hf : r.ahead.length < fuel) (sb : Text) :
    readChunks fuel r sb = sb ++ asText (chunks.flatMap Chunk.data) := by
  induction chunks generalizing r fuel sb with
  | nil =>
    obtain ⟨fuel, rfl⟩ : ∃ k, fuel = k + 1 := ⟨fuel - 1, by omega⟩
    have hline : r.ahead = [48] ++ CR :: LF :: [CR, LF] := h.trans (by decide)
    rw [readChunks, readLine_spec hline (List.all_iff_forall_prop.mp (by decide))]
    simp [asText, trim, toIntOrNull16, show value16 [48] = some 0 by decide,
      show isBlankUnit 48 = false by decide]
  | cons c chunks ih =>
    obtain ⟨⟨hdata, hint⟩, hrest⟩ := List.forall_mem_cons.mp hc
    rw [decoded_chunk, decoded_ascii hdata, decoded_ascii asciiOctets_crlf] at h
    obtain ⟨fuel, rfl⟩ : ∃ k, fuel = k + 1 := ⟨fuel - 1, by omega⟩
    obtain ⟨r', hahead, hr'⟩ := readChunks_chunk c.size (digits_ne_nil c)
      (List.length_pos_iff.mpr c.nonempty) hint h fuel sb
    have hlen : (asText c.data).length = c.data.length := List.length_map _
    rw [List.drop_left' hlen] at hahead
    rw [List.take_left' hlen] at hr'
    have hline := readLine_spec (show r'.ahead = [] ++ CR :: LF :: decoded (encodeChunks chunks) from hahead)
      fun x hx => absurd hx List.not_mem_nil
    rw [hr', hline]
    have hf' : (decoded (encodeChunks chunks)).length < fuel := by
      rw [h] at hf
      simp only [List.length_append, List.length_cons] at hf
      omega
    rw [ih hrest rfl hf', List.flatMap_cons, asText, asText, asText, List.map_append, List.append_assoc]

/-! ### Which bodies are read -/

/-- The octet of a hexadecimal digit. -/
def hexOctet (d : ℕ) : UInt8 := UInt8.ofNat (if d < 10 then 48 + d else 87 + d)

theorem hexDigit_hexOctet : ∀ d < 16, hexDigit (hexOctet d) = some d := by decide

theorem mapM_hexOctet {xs : List ℕ} (h : ∀ d ∈ xs, d < 16) : (xs.map hexOctet).mapM hexDigit = some xs := by
  induction xs with
  | nil => rfl
  | cons d xs ih =>
    obtain ⟨hd, hxs⟩ := List.forall_mem_cons.mp h
    rw [List.map_cons, List.mapM_cons, hexDigit_hexOctet d hd, ih hxs]
    rfl

theorem exists_hexNumeral (n : ℕ) : ∃ ds, hexNumeral ds = some n := by
  refine ⟨(Nat.digits 16 n).reverse.map hexOctet, ?_⟩
  have hlt : ∀ d ∈ (Nat.digits 16 n).reverse, d < 16 := by
    intro d hd
    exact Nat.digits_lt_base (by decide) (List.mem_reverse.mp hd)
  have hval : n = (Nat.digits 16 n).foldr (fun d m => d + 16 * m) 0 := by
    conv_lhs => rw [← Nat.ofDigits_digits 16 n, Nat.ofDigits_eq_foldr]
    rfl
  rw [hexNumeral, mapM_hexOctet hlt, Option.map_some, List.foldl_reverse]
  conv_rhs => rw [hval]
  simp only [Nat.add_comm]

/-- A body in one chunk comes back only if it is ASCII: else the chunk is overread. -/
theorem ascii_of_single {head : Head} {body : List Char} {c : Chunk} (hdata : c.data = utf8 body)
    {found : ℕ → ℕ} (h : readHttpBody (Reader.of (response head [c]) found) = some (utf16 body)) :
    Ascii body ∧ c.data.length < 2 ^ 31 := by
  obtain ⟨r, fuel, hahead, hf, hr⟩ := readHttpBody_response head [c] found
  obtain ⟨fuel, rfl⟩ : ∃ k, fuel = k + 1 := ⟨fuel - 1, by omega⟩
  rw [hr, Option.some.injEq] at h
  rw [decoded_chunk, hdata, decoded_utf8, decoded_ascii asciiOctets_crlf] at hahead
  have hpos := List.length_pos_iff.mpr c.nonempty
  by_cases hint : c.data.length < 2 ^ 31
  · refine ⟨?_, hint⟩
    by_contra hascii
    have hlt := length_utf16_lt hascii
    obtain ⟨r', -, hr'⟩ := readChunks_chunk c.size (digits_ne_nil c) hpos hint hahead fuel []
    -- what is read begins with as many characters as the body has octets
    have hprefix := (readChunks_extends fuel r'.readLine.2 ([] ++
      (utf16 body ++ (asText CRLF ++ decoded (encodeChunks []))).take c.data.length)).length_le
    rw [← hr', h, List.nil_append, List.length_take, List.length_append, List.length_append] at hprefix
    have hcrlf : (asText CRLF).length = 2 := rfl
    rw [hdata] at hprefix
    omega
  · exfalso
    obtain ⟨-, heol, hint16⟩ := toIntOrNull16_digits c.size (digits_ne_nil c)
    rw [if_neg hint] at hint16
    rw [readChunks, readLine_spec hahead heol] at h
    dsimp only at h
    rw [hint16] at h
    have hnil : body = [] := eq_nil_of_utf16 h.symm
    rw [hnil] at hdata
    exact c.nonempty hdata

theorem asciiOctets_utf8 {body : List Char} (h : Ascii body) : AsciiOctets (utf8 body) := by
  rw [utf8_of_ascii h]
  intro b hb
  obtain ⟨c, hc, rfl⟩ := List.mem_map.mp hb
  have hc128 := h c hc
  rw [toNat_octet (by omega)]
  exact hc128

theorem asText_utf8 {body : List Char} (h : Ascii body) : asText (utf8 body) = utf16 body := by
  -- both are what the octets decode to
  have htext := decoded_ascii (asciiOctets_utf8 h) []
  rw [decoded_utf8] at htext
  exact (List.append_cancel_right htext).symm

/-- **Which bodies are read exactly.** Whatever the header lines are, the body comes back for every
partition into chunks and every way the reads find it if and only if it is ASCII text whose length fits
an `Int`. -/
theorem readHttpBody_chunked_iff (head : Head) (body : String) :
    (∀ (chunks : List Chunk) (found : ℕ → ℕ), chunks.flatMap Chunk.data = utf8 body.toList →
      readHttpBody (Reader.of (response head chunks) found) = some (utf16 body.toList)) ↔
    Ascii body.toList ∧ body.length < 2 ^ 31 := by
  rw [← String.length_toList]
  generalize body.toList = body
  constructor
  · intro h
    by_cases hnil : body = []
    · subst hnil
      exact ⟨fun c hc => absurd hc List.not_mem_nil, by decide⟩
    obtain ⟨ds, hds⟩ := exists_hexNumeral (utf8 body).length
    have hne : utf8 body ≠ [] := by
      obtain ⟨c, s, rfl⟩ := List.exists_cons_of_ne_nil hnil
      rw [utf8, List.flatMap_cons]
      exact fun heq => String.utf8EncodeChar_ne_nil (List.append_eq_nil_iff.mp heq).1
    have hsingle := h [⟨ds, utf8 body, hne, hds⟩] (fun _ => 1) (by simp)
    obtain ⟨hascii, hint⟩ := ascii_of_single rfl hsingle
    have hlength : (utf8 body).length = body.length := by rw [utf8_of_ascii hascii, List.length_map]
    exact ⟨hascii, hlength ▸ hint⟩
  · rintro ⟨hascii, hlen⟩ chunks found hpart
    obtain ⟨r, fuel, hahead, hf, hr⟩ := readHttpBody_response head chunks found
    have hlength : (utf8 body).length = body.length := by rw [utf8_of_ascii hascii, List.length_map]
    have hchunks : ∀ c ∈ chunks, AsciiOctets c.data ∧ c.data.length < 2 ^ 31 := by
      intro c hc
      have hsub : c.data <:+: utf8 body := by
        obtain ⟨before, after, heq⟩ := List.append_of_mem hc
        rw [← hpart, heq, List.flatMap_append, List.flatMap_cons, ← List.append_assoc]
        exact List.infix_append _ _ _
      have hle := hsub.length_le
      exact ⟨fun b hb => asciiOctets_utf8 hascii b (hsub.subset hb), by omega⟩
    rw [hr, readChunks_ascii hchunks hahead hf, hpart, List.nil_append, asText_utf8 hascii]

/-- The head of a reply in the chunked coding. -/
def plainHead : Head where
  lines := [utf8 "HTTP/1.1 200 OK".toList, utf8 "Transfer-Encoding: chunked".toList]
  line := by decide +kernel
  chunked := ⟨_, List.mem_cons_of_mem _ (List.mem_singleton_self _), utf8 "Transfer-Encoding".toList, [32],
    utf8 "chunked".toList, [], by decide +kernel, by decide +kernel, by decide +kernel⟩

/-- The body `é` in one chunk comes back with a carriage return behind it. -/
theorem chunk_overread :
    ¬ ∀ (head : Head) (body : String) (chunks : List Chunk) (found : ℕ → ℕ),
      chunks.flatMap Chunk.data = utf8 body.toList →
      readHttpBody (Reader.of (response head chunks) found) = some (utf16 body.toList) := by
  intro h
  have hread := h plainHead "é" [⟨[50], [0xC3, 0xA9], by decide, by decide⟩] (fun _ => 1) (by decide +kernel)
  have hgot : readHttpBody (Reader.of (response plainHead
      [⟨[50], [0xC3, 0xA9], by decide, by decide⟩]) fun _ => 1) = some [0xE9, 13] := by decide +kernel
  rw [hread] at hgot
  exact absurd hgot (by decide +kernel)

end BypassVpn.Profile
