import QilingOs.Ledger
import QilingOs.Guest

/-!
# Guest strings

`QlOsUtils.read_string` reads guest memory forward from an address in chunks of
`len(terminator)` bytes, decodes each chunk on its own with `bytes.decode(errors="ignore")`,
and stops at the first chunk that decodes to the terminator; `read_cstring` reads with the
terminator `'\x00'`, `read_wstring` with `'\x00\x00'` and then removes every `'\x00'` from the
text, and both record the text with `string_appearance`. `sprintf` writes its text followed by
a NUL, encoded as UTF-8, or as UTF-16LE for wide strings.

`pyDecode` is `bytes.decode(errors="ignore")`: UTF-8 decoding in which an octet sequence that
cannot begin a well-formed character is dropped, decoding going on at the octet that refused
it. `encodeUtf8` and `encodeUtf16le` are `str.encode` in the two encodings.

A text written as chunks of the terminator's width, none of which decodes to the terminator,
followed by a chunk that does, reads back chunk by chunk once the loop has fuel for every chunk
(`readString_loop_chunks`), and what `read_string` returns depends only on the bytes up to the
end of the chunk it stops at (`readString_loop_congr`). An ASCII character is one such chunk in
either encoding; every octet of the UTF-8 encoding of any other character decodes alone to
nothing (`pyDecode_utf8EncodeChar_of_le`).
-/

namespace QilingOs

/-! ### `bytes.decode(errors="ignore")` -/

/-- A character whose first octets have been decoded: the octets it still needs, the least and
the greatest value the next one may have, and the bits decoded so far. -/
structure Utf8Pending where
  owed : Nat
  lo : Nat
  hi : Nat
  acc : Nat
  deriving DecidableEq, Repr

/-- Decoding the octet `b` with nothing pending: an ASCII character, the first octet of a longer
character, or nothing when no well-formed character starts with `b`. -/
def utf8Start (b : UInt8) : List Char × Option Utf8Pending :=
  let n := b.toNat
  if n < 0x80 then ([Char.ofNat n], none)
  else if n < 0xC2 then ([], none)
  else if n < 0xE0 then ([], some ⟨1, 0x80, 0xBF, n % 0x20⟩)
  else if n = 0xE0 then ([], some ⟨2, 0xA0, 0xBF, 0⟩)
  else if n = 0xED then ([], some ⟨2, 0x80, 0x9F, 0xD⟩)
  else if n < 0xF0 then ([], some ⟨2, 0x80, 0xBF, n % 0x10⟩)
  else if n = 0xF0 then ([], some ⟨3, 0x90, 0xBF, 0⟩)
  else if n < 0xF4 then ([], some ⟨3, 0x80, 0xBF, n % 8⟩)
  else if n = 0xF4 then ([], some ⟨3, 0x80, 0x8F, 4⟩)
  else ([], none)

/-- One octet of decoding: the characters it completes and what is pending after it. An octet
outside the range the pending character allows drops the pending octets and is decoded
afresh. -/
def utf8Step : Option Utf8Pending → UInt8 → List Char × Option Utf8Pending
  | none, b => utf8Start b
  | some p, b =>
    if p.lo ≤ b.toNat ∧ b.toNat ≤ p.hi then
      if p.owed = 1 then ([Char.ofNat (p.acc * 64 + b.toNat % 64)], none)
      else ([], some ⟨p.owed - 1, 0x80, 0xBF, p.acc * 64 + b.toNat % 64⟩)
    else utf8Start b

/-- Decoding from the pending state `p`; a character still pending at the end is dropped. -/
def utf8DecodeFrom : Option Utf8Pending → List UInt8 → List Char
  | _, [] => []
  | p, b :: bs => (utf8Step p b).1 ++ utf8DecodeFrom (utf8Step p b).2 bs

/-- `bytes.decode(errors="ignore")`. -/
def pyDecode (bs : List UInt8) : List Char :=
  utf8DecodeFrom none bs

example : pyDecode [0xC3, 0xA9] = ['é'] := by decide

example : pyDecode [0xE9, 0x00] = ['\x00'] := by decide

@[simp]
theorem pyDecode_nil : pyDecode [] = [] := rfl

theorem utf8Start_fst (b : UInt8) :
  (utf8Start b).1 = if b.toNat < 0x80 then [Char.ofNat b.toNat] else []
  := by
  unfold utf8Start
  by_cases h : b.toNat < 0x80
  · simp only [if_pos h]
  · simp only [if_neg h, apply_ite Prod.fst, ite_self]

theorem utf8Start_of_lt {b : UInt8} (h : b.toNat < 0x80) :
  utf8Start b = ([Char.ofNat b.toNat], none)
  := by
  simp [utf8Start, h]

/-- An ASCII octet with nothing pending decodes to its character. -/
theorem pyDecode_cons_of_lt {b : UInt8} (h : b.toNat < 0x80) (bs : List UInt8) :
  pyDecode (b :: bs) = Char.ofNat b.toNat :: pyDecode bs
  := by
  simp [pyDecode, utf8DecodeFrom, utf8Step, utf8Start_of_lt h]

/-- One octet alone decodes to its ASCII character, or to nothing. -/
theorem pyDecode_singleton (b : UInt8) :
  pyDecode [b] = if b.toNat < 0x80 then [Char.ofNat b.toNat] else []
  := by
  simp [pyDecode, utf8DecodeFrom, utf8Step, utf8Start_fst]

/-! ### `str.encode` -/

/-- `str.encode('utf-8')`. -/
def encodeUtf8 (s : List Char) : List UInt8 :=
  s.flatMap String.utf8EncodeChar

/-- The UTF-16LE code units of `c`, low octet first: one unit in the basic multilingual plane,
a surrogate pair beyond it. -/
def utf16leEncodeChar (c : Char) : List UInt8 :=
  if c.toNat < 0x10000 then leBytes 2 c.toNat
  else leBytes 2 (0xD800 + (c.toNat - 0x10000) / 0x400) ++
    leBytes 2 (0xDC00 + (c.toNat - 0x10000) % 0x400)

/-- `str.encode('utf-16le')`. -/
def encodeUtf16le (s : List Char) : List UInt8 :=
  s.flatMap utf16leEncodeChar

/-- The octet of an ASCII character. -/
def asciiByte (c : Char) : UInt8 :=
  UInt8.ofNat c.toNat

theorem Char.val_le_0x7f_iff {c : Char} : c.val ≤ 0x7f ↔ c.toNat < 0x80 := by
  rw [UInt32.le_def, BitVec.le_def]
  show c.val.toNat ≤ 127 ↔ _
  simp only [Char.toNat]
  omega

theorem toNat_asciiByte {c : Char} (h : c.toNat < 0x80) : (asciiByte c).toNat = c.toNat :=
  UInt8.toNat_ofNat_of_lt (lt_trans h (by decide))

theorem utf8EncodeChar_of_lt {c : Char} (h : c.toNat < 0x80) :
  String.utf8EncodeChar c = [asciiByte c]
  := by
  simp [String.utf8EncodeChar, Char.val_le_0x7f_iff.2 h]
  rfl

theorem utf16leEncodeChar_of_lt {c : Char} (h : c.toNat < 0x80) :
  utf16leEncodeChar c = [asciiByte c, 0]
  := by
  simp [utf16leEncodeChar, leBytes, asciiByte, Nat.mod_eq_of_lt (by omega : c.toNat < 256),
    Nat.div_eq_of_lt (by omega : c.toNat < 256), (by omega : c.toNat < 0x10000)]

theorem length_encodeUtf8_of_ascii {out : List Char} (h : ∀ c ∈ out, c.toNat < 0x80) :
  (encodeUtf8 out).length = out.length
  := by
  induction out with
  | nil => rfl
  | cons c cs ih =>
    rw [encodeUtf8, List.flatMap_cons, List.length_append, ← encodeUtf8,
      ih fun c' h' => h c' (List.mem_cons_of_mem _ h'), utf8EncodeChar_of_lt (h c (List.mem_cons_self _ _))]
    simp [Nat.add_comm]

theorem length_encodeUtf16le_of_ascii {out : List Char} (h : ∀ c ∈ out, c.toNat < 0x80) :
  (encodeUtf16le out).length = 2 * out.length
  := by
  induction out with
  | nil => rfl
  | cons c cs ih =>
    rw [encodeUtf16le, List.flatMap_cons, List.length_append, ← encodeUtf16le,
      ih fun c' h' => h c' (List.mem_cons_of_mem _ h'),
      utf16leEncodeChar_of_lt (h c (List.mem_cons_self _ _))]
    simp only [List.length_cons, List.length_nil]
    omega

theorem le_toNat_or {x k : UInt8} (hk : k.toNat.testBit 7 = true) : 0x80 ≤ (x ||| k).toNat := by
  rw [show (x ||| k).toNat = x.toNat ||| k.toNat from BitVec.toNat_or _ _]
  refine Nat.le_of_not_lt fun hlt => ?_
  have := @Nat.testBit_lt_two_pow _ 7 hlt
  simp [Nat.testBit_or, hk] at this

/-- Every octet of the UTF-8 encoding of a character beyond ASCII is at least `0x80`. -/
theorem le_of_mem_utf8EncodeChar {c : Char} (hc : 0x80 ≤ c.toNat) :
  ∀ b ∈ String.utf8EncodeChar c, 0x80 ≤ b.toNat
  := by
  have : ¬ c.val ≤ 0x7f := fun h => absurd (Char.val_le_0x7f_iff.1 h) (by omega)
  simp only [String.utf8EncodeChar, if_neg this]
  split_ifs <;> simp only [List.mem_cons, List.not_mem_nil, or_false] <;>
    rintro b (rfl | rfl | rfl | rfl) <;> exact le_toNat_or (by decide)

/-- An ASCII character decodes back from its octet. -/
theorem pyDecode_asciiByte {c : Char} (h : c.toNat < 0x80) (bs : List UInt8) :
  pyDecode (asciiByte c :: bs) = c :: pyDecode bs
  := by
  rw [pyDecode_cons_of_lt (by rwa [toNat_asciiByte h]), toNat_asciiByte h, Char.ofNat_toNat]

/-- Each octet of the UTF-8 encoding of a character, decoded alone: the character itself when it
is ASCII, nothing otherwise. -/
theorem pyDecode_utf8EncodeChar_of_le (c : Char) :
  (String.utf8EncodeChar c).flatMap (fun b => pyDecode [b]) = if c.toNat < 0x80 then [c] else []
  := by
  by_cases h : c.toNat < 0x80
  · simp [utf8EncodeChar_of_lt h, pyDecode_asciiByte h, h]
  · rw [if_neg h, List.flatMap_eq_nil_iff]
    intro b hb
    rw [pyDecode_singleton, if_neg (by have := le_of_mem_utf8EncodeChar (by omega) b hb; omega)]

/-! ### `read_string` -/

/-- `QlOsUtils.read_string(ql, address, terminator)`: the text decoded chunk by chunk before the
first chunk of `len(terminator)` bytes that decodes to `terminator`, with the address just past
that chunk. The loop reads at most `fuel` chunks. -/
def readString (m : Mem) (address : Nat) (terminator : List Char) (fuel : Nat) :
    Option (List Char × Nat) :=
  loop fuel address []
where
  /-- The `while` loop, at `address` with the text `result` read so far. -/
  loop : Nat → Nat → List Char → Option (List Char × Nat)
    | 0, _, _ => none
    | fuel + 1, address, result =>
      let char := m.read address terminator.length
      if pyDecode char = terminator then some (result, address + terminator.length)
      else loop fuel (address + terminator.length) (result ++ pyDecode char)

variable {P R : Type}

/-- `QlOsUtils.read_cstring`: the text before the first NUL byte, recorded in the ledger. -/
def readCstring (m : Mem) (l : Ledger P R) (address fuel : Nat) :
    Option (List Char × Ledger P R) :=
  (readString m address ['\x00'] fuel).map fun r => (r.1, l.stringAppearance ⟨r.1⟩)

/-- `QlOsUtils.read_wstring`: the text before the first two-byte chunk `00 00`, with every
`'\x00'` removed, recorded in the ledger. -/
def readWstring (m : Mem) (l : Ledger P R) (address fuel : Nat) :
    Option (List Char × Ledger P R) :=
  (readString m address ['\x00', '\x00'] fuel).map fun r =>
    (r.1.filter (· != '\x00'), l.stringAppearance ⟨r.1.filter (· != '\x00')⟩)

/-- The text `read_wstring` (when `wstring`) or `read_cstring` returns at `address`; the ledger
does not change it. -/
def readText (m : Mem) (wstring : Bool) (address fuel : Nat) : Option (List Char) :=
  (readString m address (if wstring then ['\x00', '\x00'] else ['\x00']) fuel).map fun r =>
    if wstring then r.1.filter (· != '\x00') else r.1

/-- `read_wstring` and `read_cstring` return the text `readText` gives and record it. -/
theorem readWstring_or_readCstring (m : Mem) (l : Ledger P R) (wstring : Bool) (address fuel : Nat) :
  (if wstring then readWstring else readCstring) m l address fuel =
    (readText m wstring address fuel).map fun s => (s, l.stringAppearance ⟨s⟩)
  := by
  cases wstring <;> simp [readText, readWstring, readCstring, Option.map_map, Function.comp_def]

/-- Memories that agree on `n` bytes from `address` read the same there. -/
theorem Mem.read_congr {m m' : Mem} {address n : Nat}
    (h : ∀ a, address ≤ a → a < address + n → m' a = m a) :
  m'.read address n = m.read address n
  := List.map_congr_left fun i hi => h _ (by omega) (by simp at hi; omega)

/-- The loop stops past the chunk it starts at. -/
theorem readString_loop_le {m : Mem} {terminator : List Char} :
    ∀ {fuel address result r e}, readString.loop m terminator fuel address result = some (r, e) →
      address + terminator.length ≤ e
  | 0, _, _, _, _, h => nomatch h
  | fuel + 1, address, result, r, e, h => by
    simp only [readString.loop] at h
    split at h
    · cases h
      exact le_refl _
    · have := readString_loop_le h
      omega

/-- What `read_string` returns depends only on the bytes from its start to the end of the chunk
it stops at. -/
theorem readString_loop_congr {m m' : Mem} {terminator : List Char} :
    ∀ {fuel address result r e}, readString.loop m terminator fuel address result = some (r, e) →
      (∀ a, address ≤ a → a < e → m' a = m a) →
      readString.loop m' terminator fuel address result = some (r, e)
  | 0, _, _, _, _, h, _ => nomatch h
  | fuel + 1, address, result, r, e, h, hm => by
    have hread : m'.read address terminator.length = m.read address terminator.length :=
      Mem.read_congr fun a ha ha' => hm a ha (by have := readString_loop_le h; omega)
    simp only [readString.loop, hread] at h ⊢
    by_cases hd : pyDecode (m.read address terminator.length) = terminator
    · rwa [if_pos hd] at h ⊢
    · rw [if_neg hd] at h ⊢
      exact readString_loop_congr h fun a ha ha' => hm a (by omega) ha'

/-- `read_string` reads no byte past the chunk it stops at: on every memory that agrees with `m`
from `address` up to where it stopped, it returns the same text. -/
theorem readString_local {m m' : Mem} {address : Nat} {terminator : List Char} {fuel : Nat}
    {r : List Char} {e : Nat} (h : readString m address terminator fuel = some (r, e))
    (hm : ∀ a, address ≤ a → a < e → m' a = m a) :
  readString m' address terminator fuel = some (r, e)
  := readString_loop_congr h hm

theorem readString_local_a :
    readString (Mem.write (fun _ => 0) 0 [0x61, 0]) 0 ['\x00'] 3 = some (['a'], 2) ∧
    (∀ a, 0 ≤ a → a < 2 →
      (fun a => if a < 2 then Mem.write (fun _ => 0) 0 [0x61, 0] a else 7) a =
        Mem.write (fun _ => 0) 0 [0x61, 0] a) ∧
    readString (fun a => if a < 2 then Mem.write (fun _ => 0) 0 [0x61, 0] a else 7) 0 ['\x00'] 3 =
      some (['a'], 2)
  := ⟨by decide, fun _ _ h => if_pos h, readString_local (by decide) fun _ _ h => if_pos h⟩

/-- Chunks of the terminator's width, none decoding to the terminator, then one that does:
given fuel for every chunk, the loop returns the chunks decoded one by one, and stops just past
the terminating chunk. -/
theorem readString_loop_chunks (m : Mem) {terminator : List Char} {term : List UInt8}
    (hterm : pyDecode term = terminator) (hlen : term.length = terminator.length) :
    ∀ (chunks : List (List UInt8)) {fuel address : Nat} (result : List Char),
      (∀ c ∈ chunks, c.length = terminator.length ∧ pyDecode c ≠ terminator) →
      m.read address (chunks.flatten ++ term).length = chunks.flatten ++ term →
      chunks.length < fuel →
      readString.loop m terminator fuel address result =
        some (result ++ (chunks.map pyDecode).flatten, address + (chunks.flatten ++ term).length)
  | [], fuel + 1, address, result, _, hm, _ => by
    simp only [List.flatten_nil, List.nil_append] at hm
    simp [readString.loop, ← hlen, hm, hterm]
  | c :: cs, fuel + 1, address, result, hc, hm, hf => by
    obtain ⟨hcl, hcd⟩ := hc c (List.mem_cons_self _ _)
    have hsplit := hm
    rw [List.flatten_cons, List.append_assoc, List.length_append, Mem.read_add] at hsplit
    obtain ⟨hc0, hrest⟩ := List.append_inj hsplit (by simp)
    simp only [readString.loop, ← hcl, hc0, if_neg hcd]
    rw [readString_loop_chunks m hterm hlen cs _ (fun c' h' => hc c' (List.mem_cons_of_mem _ h'))
      hrest (by simp at hf; omega)]
    simp [Nat.add_assoc]

/-- A text whose characters each encode to one chunk of the terminator's width that does not
decode to the terminator, written with the chunk of a NUL after it, reads back from any memory
that agrees on the bytes written: as the characters' chunks decoded, stopping just past the
NUL's chunk. -/
theorem readString_write_flatMap {enc : Char → List UInt8} {terminator out : List Char}
    (hnul : pyDecode (enc '\x00') = terminator) (hnul_len : (enc '\x00').length = terminator.length)
    (hout : ∀ c ∈ out, (enc c).length = terminator.length ∧ pyDecode (enc c) ≠ terminator)
    {m m₂ : Mem} {address fuel : Nat} (hf : out.length < fuel)
    (hm : ∀ a, address ≤ a → a < address + (out.length + 1) * terminator.length →
      m₂ a = m.write address ((out ++ ['\x00']).flatMap enc) a) :
  readString m₂ address terminator fuel =
    some (out.flatMap (fun c => pyDecode (enc c)), address + (out.length + 1) * terminator.length)
  := by
  have hflat : (out ++ ['\x00']).flatMap enc = (out.map enc).flatten ++ enc '\x00' := by
    simp [List.flatMap_def]
  have hlen : ((out.map enc).flatten ++ enc '\x00').length = (out.length + 1) * terminator.length := by
    rw [← hflat]
    clear hm hf hflat
    induction out with
    | nil => simp [hnul_len]
    | cons c cs ih =>
      rw [List.cons_append, List.flatMap_cons, List.length_append, ih fun c' h' =>
        hout c' (List.mem_cons_of_mem _ h'), (hout c (List.mem_cons_self _ _)).1, List.length_cons]
      ring
  have hread : m₂.read address ((out.map enc).flatten ++ enc '\x00').length =
      (out.map enc).flatten ++ enc '\x00' := by
    rw [Mem.read_congr fun a h₁ h₂ => hm a h₁ (by omega), hflat, ← hflat, Mem.read_write_self]
  have := readString_loop_chunks m₂ hnul hnul_len (out.map enc) [] (by simpa using hout) hread
    (by simpa using hf)
  rw [readString, this, hlen, List.nil_append, List.map_map, ← List.flatMap_def]
  rfl

/-- A NUL-free ASCII text written by `(out + '\x00').encode('utf-8')` reads back as itself, from
any memory that agrees on the bytes written. -/
theorem readString_write_encodeUtf8 {out : List Char} (hascii : ∀ c ∈ out, c.toNat < 0x80)
    (hnul : '\x00' ∉ out) {m m₂ : Mem} {address fuel : Nat} (hf : out.length < fuel)
    (hm : ∀ a, address ≤ a → a < address + (out.length + 1) →
      m₂ a = m.write address (encodeUtf8 (out ++ ['\x00'])) a) :
  readString m₂ address ['\x00'] fuel = some (out, address + (out.length + 1))
  := by
  have hc : ∀ c ∈ out, pyDecode (String.utf8EncodeChar c) = [c] := fun c h => by
    rw [utf8EncodeChar_of_lt (hascii c h), pyDecode_asciiByte (hascii c h), pyDecode_nil]
  have := @readString_write_flatMap String.utf8EncodeChar ['\x00'] out (by decide) rfl
    (fun c h => ⟨by simp [utf8EncodeChar_of_lt (hascii c h)],
      by rw [hc c h]; exact fun he => hnul (by simp_all)⟩) m m₂ address fuel hf
    fun a h₁ h₂ => hm a h₁ (by simpa using h₂)
  rw [this, List.flatMap_def, List.map_congr_left hc, ← List.flatMap_def, List.flatMap_singleton',
    List.length_singleton, Nat.mul_one]

/-- A NUL-free ASCII text written by `(out + '\x00').encode('utf-16le')` reads back, from any
memory that agrees on the bytes written, with a `'\x00'` after each character: each code unit
decodes to its low octet's character and a NUL. -/
theorem readString_write_encodeUtf16le {out : List Char} (hascii : ∀ c ∈ out, c.toNat < 0x80)
    (hnul : '\x00' ∉ out) {m m₂ : Mem} {address fuel : Nat} (hf : out.length < fuel)
    (hm : ∀ a, address ≤ a → a < address + (out.length + 1) * 2 →
      m₂ a = m.write address (encodeUtf16le (out ++ ['\x00'])) a) :
  readString m₂ address ['\x00', '\x00'] fuel =
    some (out.flatMap fun c => [c, '\x00'], address + (out.length + 1) * 2)
  := by
  have hc : ∀ c ∈ out, pyDecode (utf16leEncodeChar c) = [c, '\x00'] := fun c h => by
    rw [utf16leEncodeChar_of_lt (hascii c h), pyDecode_asciiByte (hascii c h),
      pyDecode_cons_of_lt (by decide)]
    rfl
  have := @readString_write_flatMap utf16leEncodeChar ['\x00', '\x00'] out (by decide) (by decide)
    (fun c h => ⟨by simp [utf16leEncodeChar_of_lt (hascii c h)],
      by rw [hc c h]; exact fun he => hnul (by simp_all)⟩) m m₂ address fuel hf hm
  rw [this, List.flatMap_def, List.map_congr_left hc, ← List.flatMap_def]
  rfl

/-- Removing the NULs from a NUL-free text with a NUL after each character gives the text. -/
theorem filter_flatMap_nul {out : List Char} (hnul : '\x00' ∉ out) :
  (out.flatMap fun c => [c, '\x00']).filter (· != '\x00') = out
  := by
  induction out with
  | nil => rfl
  | cons c cs ih =>
    have hc : c ≠ '\x00' := fun h => hnul (h ▸ List.mem_cons_self _ _)
    simp [hc, ih fun h => hnul (List.mem_cons_of_mem _ h)]

/-- The octets of the UTF-8 encoding of a text, each decoded alone: the text's ASCII
characters. -/
theorem flatMap_pyDecode_encodeUtf8 (out : List Char) :
  (encodeUtf8 out).flatMap (fun b => pyDecode [b]) = out.filter (·.toNat < 0x80)
  := by
  induction out with
  | nil => rfl
  | cons c cs ih =>
    rw [encodeUtf8, List.flatMap_cons, List.flatMap_append, ← encodeUtf8, ih,
      pyDecode_utf8EncodeChar_of_le, List.filter_cons]
    by_cases h : c.toNat < 0x80 <;> simp [h]

/-- A NUL-free text written by `(out + '\x00').encode('utf-8')` reads back one octet at a
time, from any memory that agrees on the bytes written: every character beyond ASCII is
dropped. -/
theorem readString_write_encodeUtf8_filter {out : List Char} (hnul : '\x00' ∉ out)
    {m m₂ : Mem} {address fuel : Nat} (hf : (encodeUtf8 out).length < fuel)
    (hm : ∀ a, address ≤ a → a < address + ((encodeUtf8 out).length + 1) →
      m₂ a = m.write address (encodeUtf8 (out ++ ['\x00'])) a) :
  readString m₂ address ['\x00'] fuel =
    some (out.filter (·.toNat < 0x80), address + ((encodeUtf8 out).length + 1))
  := by
  have henc : encodeUtf8 (out ++ ['\x00']) = encodeUtf8 out ++ [0] := by
    rw [encodeUtf8, List.flatMap_append]
    rfl
  have hflat : ((encodeUtf8 out).map fun b => [b]).flatten = encodeUtf8 out := by
    rw [← List.flatMap_def, List.flatMap_singleton']
  have hb : ∀ b ∈ encodeUtf8 out, pyDecode [b] ≠ ['\x00'] := by
    intro b hb he
    obtain ⟨c, hc, hbc⟩ := List.mem_flatMap.mp hb
    rw [pyDecode_singleton] at he
    split_ifs at he with hlt
    have hca : c.toNat < 0x80 := Nat.lt_of_not_le fun h => by
      have := le_of_mem_utf8EncodeChar h b hbc; omega
    rw [utf8EncodeChar_of_lt hca, List.mem_singleton] at hbc
    subst hbc
    rw [toNat_asciiByte hca, Char.ofNat_toNat, List.singleton_inj] at he
    exact hnul (he ▸ hc)
  have hread : m₂.read address (((encodeUtf8 out).map fun b => [b]).flatten ++ [0]).length =
      ((encodeUtf8 out).map fun b => [b]).flatten ++ [0] := by
    rw [hflat, ← henc, Mem.read_congr fun a h₁ h₂ => hm a h₁ (by simpa [henc] using h₂),
      Mem.read_write_self]
  have := @readString_loop_chunks m₂ ['\x00'] [0] (by decide) rfl
    ((encodeUtf8 out).map fun b => [b]) fuel address [] (by simpa using hb) hread (by simpa using hf)
  rw [readString, this, List.nil_append, List.map_map, ← List.flatMap_def, hflat]
  simp only [Function.comp_def, flatMap_pyDecode_encodeUtf8, List.length_append,
    List.length_singleton]

end QilingOs
