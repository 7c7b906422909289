import QilingOs.Printf.Python
import QilingOs.Printf.Ascii

/-!
# The emulated `printf` against C's

`printf` and `sprintf` hand the format, with `%llx` and `%p` rewritten, and the arguments, with
the strings of `s` conversions read, to Python's `%` (`commonPrintfCall_formatText`). This module
compares what `%` then writes with what C's `printf` writes (`cFormat`), conversion by conversion.

* Python pads a converted text as C does once its sign and `#` prefix are taken apart
  (`argOutput_eq_cPad`), writes the digits C writes (`formatLong_eq`), and reads the conversion's
  flags and width as C's (`ConvSpec.pyFlags_eq`, `ConvSpec.pyWidth_getD`).
* `ConvSpec.Emulated` says for which conversion and argument word the two agree, and
  `convert_emulated` proves that they then write the same bytes, in ASCII.
* `pyItems_emulated`, by induction over the items, lifts this to the whole format, and
  `printf_eq_cFormat` and `sprintf_eq_cFormat` to the two calls: they return normally and write
  exactly what C writes, and `sprintf` returns C's count.
* Beyond `%llx`, a length `ll` makes the emulation raise (`printf_ll_raises`): `%` skips one `l`.
* `%d` writes a word with its sign bit set as the unsigned number it is, where C writes a negative
  `int` (`printf_d_sign_bit`): `va_list` hands `%` the words as nonnegative ints. `%c` writes the
  character of the whole word, or raises, where C writes its low byte (`printf_c_char`). `%Ns`
  writes the pointer in decimal, where C writes the string (`printf_s_width_pointer`).
* An ASCII text without NUL that `sprintf` wrote reads back with `read_cstring` or
  `read_wstring`, and `sprintf` returns its length in code units (`sprintf_read_back`). Beyond
  ASCII it does not: on the format `é`, which `%` copies, both readers return nothing
  (`sprintf_non_ascii_unread`).
-/

namespace QilingOs

/-! ### Python's padding is C's -/

/-- The sign Python writes before a nonnegative number: `+` with the flag `+`, a space with the
flag ` `. -/
def PyFlags.signChar (f : PyFlags) : Option Char :=
  if f.sign then some '+' else if f.blank then some ' ' else none

/-- The prefix `#` gives the conversion `ch`: `0` and the conversion character for `x`, `X`
and `o`. -/
def altPrefix (alt : Bool) (ch : Char) : List Char :=
  if alt ∧ (ch = 'x' ∨ ch = 'X' ∨ ch = 'o') then ['0', ch] else []

/-- A text with no sign of its own behind the prefix `#` asks for: `unicode_format_arg_output`
pads it as C does, with the sign of a number (`sign`) made from the flags. -/
theorem argOutput_eq_cPad (a : PyArgSpec) (ch : Char) (sign : Bool)
    (hprec : ch = 's' ∨ ch = 'r' ∨ ch = 'a' → a.prec = none)
    (body : List Char) (hb : sign → ∀ d ∈ body.head?, d ≠ '-' ∧ d ≠ '+') :
  argOutput a ch sign (altPrefix a.flags.alt ch ++ body) =
    cPad ' ' '0' a.flags.ljust (sign && a.flags.zero) (a.width.getD 0)
      ((if sign then a.flags.signChar.toList else []) ++ altPrefix a.flags.alt ch) body
  := by
  have hhead : ¬(sign ∧ ((altPrefix a.flags.alt ch ++ body).head? = some '-' ∨
      (altPrefix a.flags.alt ch ++ body).head? = some '+')) := by
    rintro ⟨hs, h⟩
    unfold altPrefix at h
    split at h
    · simp at h
    · cases body with
      | nil => simp at h
      | cons d ds =>
        have := hb hs d rfl
        rcases h with h | h <;> simp only [List.nil_append, List.head?_cons, Option.some.injEq] at h
        exacts [this.1 h, this.2 h]
  simp -zeta only [argOutput]
  lift_lets
  intro fill len₀ signchar taken len₁ width₁ width₂ prefixed width₃ len₃ leftPad width₄ lead
  have hsign : signchar = if sign then a.flags.signChar else none := by
    cases sign
    · rfl
    · simp only [signchar, if_true]
      rw [if_neg fun h => hhead ⟨rfl, h⟩]
      rfl
  have htaken : taken = 0 := if_neg hhead
  have hlen₀ : len₀ = (altPrefix a.flags.alt ch ++ body).length := by
    simp only [len₀]
    split
    · next h => rw [hprec h, Option.getD_none, min_self]
    · rfl
  have hlead : lead = (if sign then a.flags.signChar.toList else []) ++ altPrefix a.flags.alt ch := by
    simp only [lead, hsign, altPrefix, prefixed]
    cases sign <;> rfl
  -- the widths: `n` fill characters go to the left or to the right
  obtain ⟨hwidth, hlen⟩ : width₃ - len₃ = a.width.getD 0 - (lead.length + body.length) ∧
      len₃ = body.length := by
    simp only [width₃, len₃, width₂, width₁, len₁, hlen₀, htaken, hlead, hsign, prefixed]
    by_cases hp : a.flags.alt = true ∧ (ch = 'x' ∨ ch = 'X' ∨ ch = 'o') <;>
      cases sign <;> cases a.flags.signChar <;> simp [altPrefix, hp] <;> (try split_ifs) <;> omega
  have htext : ((altPrefix a.flags.alt ch ++ body).drop (taken + if prefixed then 2 else 0)).take len₃ = body := by
    rw [hlen, htaken, Nat.zero_add]
    by_cases hp : a.flags.alt = true ∧ (ch = 'x' ∨ ch = 'X' ∨ ch = 'o') <;> simp [altPrefix, hp, prefixed]
  clear_value width₃ len₃
  have hleft : leftPad = if a.flags.ljust then 0 else a.width.getD 0 - (lead.length + body.length) := by
    simp only [leftPad]
    cases a.flags.ljust
    · simp only [Bool.not_false, and_true, Bool.false_eq_true, if_false]
      split <;> omega
    · simp only [Bool.not_true, Bool.false_eq_true, and_false, if_false, if_true]
  have hright : width₄ - len₃ = if a.flags.ljust then a.width.getD 0 - (lead.length + body.length) else 0 := by
    simp only [width₄, hleft]
    split <;> omega
  rw [hleft, hright, htext, ← hlead]
  cases a.flags.ljust <;> cases hz : (sign && a.flags.zero) <;> simp [cPad, fill, hz]

/-! ### Python's digits are C's -/

/-- `%X` and `upper` agree on the digits below sixteen. -/
theorem upperAtoX_digitChar : ∀ k < 16, upperAtoX (Nat.digitChar k) = (Nat.digitChar k).toUpper := by
  decide

/-- `_PyUnicode_FormatLong` writes the prefix of `#` before the digits C writes. -/
theorem formatLong_eq (alt : Bool) {prec : Option Nat} (v : Conv) (hv : v ≠ .c ∧ v ≠ .p ∧ v ≠ .s)
    {n : Nat} (hn : ¬(prec = some 0 ∧ n = 0)) :
  formatLong alt prec v.char n =
    altPrefix alt v.char ++ (cDigits v.base prec n).map fun d => if v = .X then d.toUpper else d
  := by
  rw [cDigits_eq v.base hn]
  cases v
  case c | p | s => simp at hv
  case X =>
    have hd : (Nat.toDigits 16 n).map upperAtoX = (Nat.toDigits 16 n).map Char.toUpper :=
      List.map_congr_left fun d h => by
        obtain ⟨k, hk, rfl⟩ := Nat.mem_toDigits (by decide) h
        exact upperAtoX_digitChar k hk
    cases alt <;> simp +decide [formatLong, altPrefix, Conv.char, Conv.base, hd]
  all_goals cases alt <;> simp +decide [formatLong, altPrefix, Conv.char, Conv.base]

/-! ### The flags and width `%` reads -/

theorem Flag.char_inj {f g : Flag} : f.char = g.char ↔ f = g := by
  cases f <;> cases g <;> decide

theorem mem_takeWhile_zero (ds : List Char) : '0' ∈ ds.takeWhile (· == '0') ↔ ds.head? = some '0' := by
  cases ds with
  | nil => simp
  | cons d ds =>
    by_cases h : d = '0'
    · simp [List.takeWhile_cons, h]
    · simp [List.takeWhile_cons, h, fun e : '0' = d => h e.symm]

/-- The flags `%` reads from a conversion are its C flags, the leading zeros of its width
among them. -/
theorem ConvSpec.pyFlags_eq (c : ConvSpec) :
  c.pyFlags = ⟨decide (Flag.minus ∈ c.flags), decide (Flag.plus ∈ c.flags),
    decide (Flag.space ∈ c.flags), decide (Flag.hash ∈ c.flags), c.zeroFlag⟩
  := by
  have hmem : ∀ f : Flag, f.char ∈ c.flags.map Flag.char ↔ f ∈ c.flags := fun f => by
    simp only [List.mem_map, Flag.char_inj, exists_eq_right]
  have hzeros : ∀ x ∈ c.widthDigits.takeWhile (· == '0'), x = '0' := fun x h => by
    simpa using List.mem_takeWhile_imp h
  have hflag : ∀ f : Flag, f ≠ .zero →
      (f.char ∈ c.flags.map Flag.char ++ c.widthDigits.takeWhile (· == '0') ↔ f ∈ c.flags) :=
    fun f hf => by
      rw [List.mem_append, hmem, or_iff_left fun h => hf (Flag.char_inj.mp (hzeros _ h))]
  simp only [ConvSpec.pyFlags, PyFlags.add, PyFlags.empty, Bool.false_or, ConvSpec.zeroFlag]
  congr 1
  · exact decide_eq_decide.mpr (hflag .minus (by decide))
  · exact decide_eq_decide.mpr (hflag .plus (by decide))
  · exact decide_eq_decide.mpr (hflag .space (by decide))
  · exact decide_eq_decide.mpr (hflag .hash (by decide))
  · have h0 := hmem .zero
    simp only [Flag.char] at h0
    simp only [List.mem_append, h0, mem_takeWhile_zero, Bool.decide_or]
    rw [beq_eq_decide]
    congr

/-- The width `%` reads is the value of the conversion's width, zero when it has none. -/
theorem ConvSpec.pyWidth_getD (c : ConvSpec) : c.pyWidth.getD 0 = numeralValue 0 c.widthDigits := by
  unfold ConvSpec.pyWidth
  split
  · next h =>
    rw [numeralValue_of_zeros _ fun d hd => by simpa using List.dropWhile_eq_nil_iff.mp h d hd]
    rfl
  · rfl

/-! ### The rewrites of `%llx` and `%p` -/

/-- A conversion other than `%p`, with `ll` only in a bare `%llx`, is rewritten to one `%` reads
as it: the same flags, width and precision, and its own conversion character. -/
theorem ConvSpec.rewrite_of_ll {c : ConvSpec} (hp : c.conv ≠ .p)
    (hll : c.length = .ll → c = ⟨[], none, none, .ll, .x⟩) :
    c.rewrite.pyParse = c.pyParse ∧ c.rewrite.pyChar = c.conv.char ∧
      c.rewrite.width = c.width ∧ c.rewrite.precision = c.precision := by
  by_cases hx : c = ⟨[], none, none, .ll, .x⟩
  · subst hx
    exact ⟨rfl, rfl, rfl, rfl⟩
  · have hnp : c ≠ ⟨[], none, none, .none, .p⟩ := fun h => hp (h ▸ rfl)
    have hl : c.length ≠ .ll := fun h => hx (hll h)
    simp only [ConvSpec.rewrite, if_neg hx, if_neg hnp, ConvSpec.pyChar, if_neg hl, and_self]

/-- The rewrites of `%llx` and `%p` introduce no `*`. -/
theorem ConvSpec.rewrite_no_star {c : ConvSpec} (hw : c.width ≠ some .star)
    (hp : c.precision ≠ some .star) :
    c.rewrite.width ≠ some .star ∧ c.rewrite.precision ≠ some .star := by
  unfold ConvSpec.rewrite
  split_ifs <;> simp_all

/-- The rewritten items have no `*` when the items have none. -/
theorem rewrite_no_star {items : List FmtItem}
    (hstar : ∀ c, FmtItem.conv c ∈ items → c.width ≠ some .star ∧ c.precision ≠ some .star) :
    ∀ c, FmtItem.conv c ∈ items.map FmtItem.rewrite →
      c.width ≠ some .star ∧ c.precision ≠ some .star := by
  intro c hc
  obtain ⟨it, hit, he⟩ := List.mem_map.mp hc
  cases it with
  | conv c' =>
    rw [← FmtItem.conv.inj he]
    exact ConvSpec.rewrite_no_star (hstar c' hit).1 (hstar c' hit).2
  | lit _ _ => cases he
  | escape => cases he

theorem no_star_of_plain {items : List FmtItem} (hplain : ∀ it ∈ items, it.Plain) :
    ∀ c, FmtItem.conv c ∈ items → c.width ≠ some .star ∧ c.precision ≠ some .star :=
  fun _ hc => ⟨(hplain _ hc).1, (hplain _ hc).2.1⟩

/-! ### One conversion -/

/-- An integer conversion's digits are Python's: not a zero value with precision zero (C writes
no digit, Python `0`), and not `0` with a precision unless `-` (C pads with spaces then, Python
with zeros). -/
def ConvSpec.DigitsEmulated (c : ConvSpec) (w : Nat) : Prop :=
  ¬(c.precValue = some 0 ∧ w = 0) ∧ (c.zeroFlag ∧ c.precValue.isSome → Flag.minus ∈ c.flags)

/-- The conversions `printf` writes as C does for the argument word `w`, with a `long` of
`longBits` bits: a width and precision `%` accepts, `ll` only in a bare `%llx`, and
* for `d` and `i`, no `#` and a word below the sign bit of the bits read;
* for `u`, `o`, `x` and `X`, no `+` or ` `, `#` only on a nonzero `x` or `X`, and a word within
  the bits read;
* for `c`, no length, `#`, `0` or precision, and an ASCII byte;
* for `s`, an ASCII string within `fuel` bytes;
and never `p`, whose text C leaves to the implementation. -/
def ConvSpec.Emulated (longBits : Nat) (m : Mem) (fuel : Nat) (c : ConvSpec) (w : Nat) : Prop :=
  numeralValue 0 c.widthDigits ≤ pySsizeTMax ∧ c.precValue.getD 0 ≤ intMax - 3 ∧
    (c.length = .ll → c = ⟨[], none, none, .ll, .x⟩) ∧
    match c.conv with
    | .d | .i => Flag.hash ∉ c.flags ∧ w < 2 ^ (c.length.bits longBits - 1) ∧ c.DigitsEmulated w
    | .u | .o | .x | .X => Flag.plus ∉ c.flags ∧ Flag.space ∉ c.flags ∧
      (Flag.hash ∈ c.flags → (c.conv = .x ∨ c.conv = .X) ∧ w ≠ 0) ∧
      w < 2 ^ c.length.bits longBits ∧ c.DigitsEmulated w
    | .c => c.length = .none ∧ Flag.hash ∉ c.flags ∧ c.zeroFlag = false ∧ c.precision = none ∧
      w < 0x80
    | .s => match cString m w fuel with
      | some bs => ∀ b ∈ bs, b.toNat < 0x80
      | none => False
    | .p => False

instance (longBits : Nat) (m : Mem) (fuel : Nat) (c : ConvSpec) (w : Nat) :
    Decidable (c.Emulated longBits m fuel w) := by
  unfold ConvSpec.Emulated ConvSpec.DigitsEmulated
  split <;> try split
  all_goals infer_instance

theorem formatArg_int (rt : PyRuntime) (a : PyArgSpec) (v : Conv)
    (hv : v ≠ .c ∧ v ≠ .p ∧ v ≠ .s) (n : Nat) :
  formatArg rt a v.char (.int n) = if intMax - 3 < a.prec.getD 0 then .error .overflow
    else .ok (argOutput a v.char true (formatLong a.flags.alt a.prec v.char n))
  := by
  cases v
  case c | p | s => simp at hv
  all_goals simp [formatArg, Conv.char]

theorem formatArg_c (rt : PyRuntime) (a : PyArgSpec) (n : Nat) :
  formatArg rt a 'c' (.int n) = if 0x10FFFF < n then .error .overflow
    else if 0xD800 ≤ n ∧ n ≤ 0xDFFF then .error .surrogate
    else .ok (argOutput a 'c' false [Char.ofNat n])
  := by
  simp [formatArg]

theorem formatArg_s (rt : PyRuntime) (a : PyArgSpec) (s : List Char) :
    formatArg rt a 's' (.str s) = .ok (argOutput a 's' false s) := by
  simp [formatArg]

/-- `%` writes an integer conversion's word as C writes the same word read as unsigned, with the
sign `+` or ` ` of the flags, and the prefix of `#` even for zero. -/
theorem pyConvert_integer (rt : PyRuntime) (c : ConvSpec) (hv : c.conv ≠ .c ∧ c.conv ≠ .p ∧ c.conv ≠ .s)
    (hwidth : numeralValue 0 c.widthDigits ≤ pySsizeTMax) (hprec : c.precValue.getD 0 ≤ intMax - 3)
    {w : Nat} (hw : ¬(c.precValue = some 0 ∧ w = 0)) (rest : List PyArg) :
  (c.pyParse.bind fun a => convert rt a c.conv.char (.int w :: rest)) = .ok (.text, rest,
    cPad ' ' '0' (decide (Flag.minus ∈ c.flags)) c.zeroFlag (numeralValue 0 c.widthDigits)
      (c.pyFlags.signChar.toList ++ altPrefix (decide (Flag.hash ∈ c.flags)) c.conv.char)
      ((cDigits c.conv.base c.precValue w).map fun d => if c.conv = .X then d.toUpper else d))
  := by
  have hparse : c.pyParse = .ok ⟨c.pyFlags, c.pyWidth, c.precValue⟩ := by
    rw [ConvSpec.pyParse, if_neg (by omega), if_neg (by unfold intMax at hprec ⊢; omega)]
  have hch : ¬(c.conv.char = 's' ∨ c.conv.char = 'r' ∨ c.conv.char = 'a') := by
    cases h : c.conv <;> simp_all [Conv.char]
  have hbody := cDigits_facts c.conv.base c.conv.base_bounds c.precValue w
    (decide (c.conv = .X))
  simp only [decide_eq_true_eq] at hbody
  rw [hparse]
  simp only [Except.bind, convert, nextArg, formatArg_int rt _ _ hv, if_neg (Nat.not_lt.mpr hprec),
    formatLong_eq _ c.conv hv hw, Except.map]
  rw [argOutput_eq_cPad _ _ true (fun h => absurd h hch) _ fun _ d hd =>
    (hbody d (List.mem_of_mem_head? hd)).2, ConvSpec.pyWidth_getD, c.pyFlags_eq]
  simp only [Bool.true_and, if_true]

/-- What C writes for an integer conversion of a nonnegative value, in the terms of Python's
padding: the sign of the flags, the prefix of `#` and the digits. -/
theorem cInteger_natCast (c : ConvSpec) (width : Nat) (left : Bool) (prec : Option Nat) (w : Nat)
    (hsign : c.conv = .d ∨ c.conv = .i ∨ (Flag.plus ∉ c.flags ∧ Flag.space ∉ c.flags))
    (hhash : Flag.hash ∈ c.flags → (c.conv = .x ∨ c.conv = .X) ∧ w ≠ 0) :
  cInteger c width left prec w = encodeUtf8 (cPad ' ' '0' left (c.zeroFlag ∧ prec = none) width
    (c.pyFlags.signChar.toList ++ altPrefix (decide (Flag.hash ∈ c.flags)) c.conv.char)
    ((cDigits c.conv.base prec w).map fun d => if c.conv = .X then d.toUpper else d))
  := by
  have hpre : (if Flag.hash ∈ c.flags ∧ (c.conv = .x ∨ c.conv = .X) ∧ (w : Int) ≠ 0 then
      ['0', if c.conv = .X then 'X' else 'x'] else []) =
      altPrefix (decide (Flag.hash ∈ c.flags)) c.conv.char := by
    by_cases hh : Flag.hash ∈ c.flags
    · obtain ⟨hx, hw⟩ := hhash hh
      rcases hx with hx | hx <;> simp [altPrefix, hh, hx, hw, Conv.char]
    · simp [altPrefix, hh]
  have hbody : ¬(Flag.hash ∈ c.flags ∧ c.conv = .o) := fun ⟨hh, ho⟩ => by
    rcases (hhash hh).1 with h | h <;> rw [ho] at h <;> cases h
  have hsign' : (if (c.conv = .d ∨ c.conv = .i) ∧ Flag.plus ∈ c.flags then ['+']
      else if (c.conv = .d ∨ c.conv = .i) ∧ Flag.space ∈ c.flags then [' '] else []) =
      c.pyFlags.signChar.toList := by
    rw [c.pyFlags_eq]
    rcases hsign with h | h | ⟨hp, hs⟩ <;> simp [PyFlags.signChar, *] <;> split_ifs <;> rfl
  simp only [cInteger, Int.natAbs_ofNat, Int.natCast_nonneg, not_lt.mpr, if_false, decide_eq_true_eq,
    hpre, hsign']
  rw [if_neg fun h => hbody ⟨h.1, h.2.1⟩]

/-- The text both write for an integer conversion: Python's padding of the sign, the prefix and
the digits. -/
theorem integer_emulated (rt : PyRuntime) (c : ConvSpec) (hv : c.conv ≠ .c ∧ c.conv ≠ .p ∧ c.conv ≠ .s)
    (hwidth : numeralValue 0 c.widthDigits ≤ pySsizeTMax) (hprec : c.precValue.getD 0 ≤ intMax - 3)
    {w : Nat} (hdig : c.DigitsEmulated w)
    (hsign : c.conv = .d ∨ c.conv = .i ∨ (Flag.plus ∉ c.flags ∧ Flag.space ∉ c.flags))
    (hhash : Flag.hash ∈ c.flags → (c.conv = .x ∨ c.conv = .X) ∧ w ≠ 0) :
    ∃ out : List Char, (∀ rest, (c.pyParse.bind fun a => convert rt a c.conv.char (.int w :: rest)) =
      .ok (.text, rest, out)) ∧
      cInteger c (numeralValue 0 c.widthDigits) (decide (Flag.minus ∈ c.flags)) c.precValue w =
        encodeUtf8 out ∧ ∀ ch ∈ out, ch.toNat < 0x80 := by
  refine ⟨_, pyConvert_integer rt c hv hwidth hprec hdig.1, ?_, fun ch hch => ?_⟩
  · rw [cInteger_natCast c _ _ _ w hsign hhash]
    by_cases hm : Flag.minus ∈ c.flags
    · simp only [decide_eq_true hm, cPad_left]
    · have hz : decide (c.zeroFlag = true ∧ c.precValue = none) = c.zeroFlag := by
        cases hzf : c.zeroFlag
        · rfl
        · cases hp : c.precValue
          · rfl
          · exact absurd (hdig.2 ⟨hzf, by simp [hp]⟩) hm
      rw [hz]
  · rcases mem_cPad hch with h | h | rfl | rfl
    · rcases List.mem_append.mp h with h | h
      · rw [c.pyFlags_eq] at h
        simp only [PyFlags.signChar] at h
        split_ifs at h <;> simp_all
      · simp only [altPrefix] at h
        split_ifs at h with ha
        · rcases ha.2 with e | e | e <;> simp only [e, List.mem_cons, List.mem_singleton,
            List.not_mem_nil, or_false] at h <;> rcases h with rfl | rfl <;> decide
        · exact absurd h (List.not_mem_nil _)
    · exact (cDigits_facts _ c.conv.base_bounds _ _ (decide (c.conv = .X)) ch
        (by simpa using h)).1
    · decide
    · decide

/-- `%c` of an ASCII word: the character, padded as C pads the byte. -/
theorem char_emulated (rt : PyRuntime) (longBits : Nat) (m : Mem) (fuel : Nat) (c : ConvSpec)
    (hcv : c.conv = .c) (hwidth : numeralValue 0 c.widthDigits ≤ pySsizeTMax)
    (hc : c.length = .none ∧ Flag.hash ∉ c.flags ∧ c.zeroFlag = false ∧ c.precision = none ∧ w < 0x80) :
    ∃ out : List Char, (∀ rest, (c.pyParse.bind fun a => convert rt a 'c' (.int w :: rest)) =
      .ok (.text, rest, out)) ∧
      cConvert longBits m fuel c (numeralValue 0 c.widthDigits) (decide (Flag.minus ∈ c.flags))
        c.precValue w = some (encodeUtf8 out) ∧ ∀ ch ∈ out, ch.toNat < 0x80 := by
  obtain ⟨hlen, hh, hz, hprec, hw⟩ := hc
  have hpv : c.precValue = none := by simp [ConvSpec.precValue, hprec]
  have hch : (Char.ofNat w).toNat < 0x80 := by rwa [Char.toNat_ofNat_of_lt hw]
  have hascii : ∀ ch ∈ cPad ' ' '0' (decide (Flag.minus ∈ c.flags)) false
      (numeralValue 0 c.widthDigits) [] [Char.ofNat w], ch.toNat < 0x80 := fun ch h => by
    rcases mem_cPad h with h | h | rfl | rfl
    · cases h
    · rwa [List.mem_singleton.mp h]
    all_goals decide
  refine ⟨_, fun rest => ?_, ?_, hascii⟩
  · rw [ConvSpec.pyParse, if_neg (by omega), if_neg (by simp [hpv])]
    have hx : [Char.ofNat w] = altPrefix c.pyFlags.alt 'c' ++ [Char.ofNat w] := by simp [altPrefix]
    simp only [Except.bind, convert, nextArg, formatArg_c, if_neg (by omega : ¬0x10FFFF < w),
      if_neg (by omega : ¬(0xD800 ≤ w ∧ w ≤ 0xDFFF)), Except.map]
    rw [hx, argOutput_eq_cPad _ _ false (fun h => absurd h (by decide)) _ (by simp),
      ConvSpec.pyWidth_getD, c.pyFlags_eq]
    simp [altPrefix]
  · simp only [cConvert, hcv, hlen, hh, hz, hpv, ne_eq, not_true_eq_false, false_or,
      Bool.false_eq_true, Option.isSome_none, if_false, or_self]
    rw [encodeUtf8_cPad (by simpa using hch)]
    simp [encodeUtf8, utf8EncodeChar_of_lt hch, asciiByte, Char.toNat_ofNat_of_lt hw]

/-- `%s` of an ASCII string: its characters. -/
theorem string_emulated (rt : PyRuntime) (longBits : Nat) (m : Mem) (fuel w : Nat)
    {bs : List UInt8} (hbs : cString m w fuel = some bs) (hascii : ∀ b ∈ bs, b.toNat < 0x80) :
    (∀ rest, ((⟨[], none, none, .none, .s⟩ : ConvSpec).pyParse.bind fun a => convert rt a 's'
        (.str (bs.flatMap fun b => pyDecode [b]) :: rest)) =
      .ok (.text, rest, bs.flatMap fun b => pyDecode [b])) ∧
      cConvert longBits m fuel ⟨[], none, none, .none, .s⟩ 0 false none w =
        some (encodeUtf8 (bs.flatMap fun b => pyDecode [b])) := by
  obtain ⟨henc, -⟩ := encodeUtf8_flatMap_pyDecode hascii
  refine ⟨fun rest => ?_, ?_⟩
  · have hpad := argOutput_eq_cPad ⟨.empty, none, none⟩ 's' false (fun _ => rfl)
      (bs.flatMap fun b => pyDecode [b]) (by simp)
    simp only [altPrefix, PyFlags.empty, Bool.false_and, false_and, if_false, List.nil_append,
      Option.getD_none, cPad, Nat.zero_sub, List.replicate_zero, Bool.false_eq_true] at hpad
    have hparse : ConvSpec.pyParse ⟨[], none, none, .none, .s⟩ = .ok ⟨.empty, none, none⟩ := rfl
    simp only [hparse, Except.bind, convert, nextArg, formatArg_s, Except.map, PyFlags.empty, hpad]
  · simp [cConvert, hbs, henc, ConvSpec.zeroFlag, ConvSpec.widthDigits, cPad]

/-- **One conversion.** For a plain conversion emulated with the word `w`, the string loop leaves
the argument `%` reads, and `%` writes for it the ASCII text whose bytes C writes. -/
theorem convert_emulated (rt : PyRuntime) {longBits : Nat} {m : Mem} {fuel : Nat} {c : ConvSpec}
    (hc : c.Plain) {w : Nat} (he : c.Emulated longBits m fuel w) :
    ∃ v out, (if c.conv = .s then (readText m false w fuel).map PyArg.str else some (PyArg.int w)) =
        some v ∧
      (∀ rest, (c.rewrite.pyParse.bind fun a => convert rt a c.rewrite.pyChar (v :: rest)) =
        .ok (.text, rest, out)) ∧
      cConvert longBits m fuel c (numeralValue 0 c.widthDigits) (decide (Flag.minus ∈ c.flags))
        c.precValue w = some (encodeUtf8 out) ∧
      ∀ ch ∈ out, ch.toNat < 0x80 := by
  obtain ⟨hwd, hpr, hll, hconv⟩ := he
  have hp : c.conv ≠ .p := fun h => by rw [h] at hconv; exact hconv
  obtain ⟨hparse, hchar, -, -⟩ := ConvSpec.rewrite_of_ll hp hll
  simp only [hparse, hchar]
  cases hcv : c.conv with
  | d | i =>
    simp only [hcv] at hconv
    obtain ⟨hh, hw, hdig⟩ := hconv
    obtain ⟨out, hpy, hC, hascii⟩ := integer_emulated rt c (by simp [hcv]) hwd hpr hdig
      (by simp [hcv]) fun h => absurd h hh
    refine ⟨.int w, out, rfl, fun rest => by rw [← hcv]; exact hpy rest, ?_, hascii⟩
    simp only [cConvert, hcv, if_neg hh, toSigned_of_lt hw, hC]
  | u | o | x | X =>
    simp only [hcv, reduceCtorEq, false_or, or_false] at hconv
    obtain ⟨hplus, hspace, hh, hw, hdig⟩ := hconv
    obtain ⟨out, hpy, hC, hascii⟩ := integer_emulated rt c (by simp [hcv]) hwd hpr hdig
      (.inr (.inr ⟨hplus, hspace⟩)) (by simpa [hcv] using hh)
    refine ⟨.int w, out, rfl, fun rest => by rw [← hcv]; exact hpy rest, ?_, hascii⟩
    simp_all [cConvert, Nat.mod_eq_of_lt hw]
  | c =>
    simp only [hcv] at hconv
    obtain ⟨out, hpy, hC, hascii⟩ := char_emulated rt longBits m fuel c hcv hwd hconv
    exact ⟨.int w, out, rfl, hpy, hC, hascii⟩
  | s =>
    obtain ⟨hf, hwn, hpn, hl⟩ := hc.2.2 hcv
    obtain ⟨_, _, _, _, _⟩ := c
    simp only at hf hwn hpn hl hcv
    subst hf hwn hpn hl hcv
    simp only at hconv
    cases hbs : cString m w fuel with
    | none => rw [hbs] at hconv; exact hconv.elim
    | some bs =>
      rw [hbs] at hconv
      obtain ⟨hpy, hC⟩ := string_emulated rt longBits m fuel w hbs hconv
      exact ⟨.str _, _, by simp [readText_cString, hbs], hpy, hC,
        (encodeUtf8_flatMap_pyDecode hconv).2⟩
  | p => exact absurd hcv hp

/-! ### The whole format -/

/-- The items emulated with the argument words `ws`: each conversion emulated with the word it
consumes, no escape, and no word left over. -/
def formatEmulated (longBits : Nat) (m : Mem) (fuel : Nat) : List FmtItem → List Nat → Prop
  | [], ws => ws = []
  | .lit _ _ :: its, ws => formatEmulated longBits m fuel its ws
  | .escape :: _, _ => False
  | .conv c :: its, w :: ws => c.Emulated longBits m fuel w ∧ formatEmulated longBits m fuel its ws
  | .conv _ :: _, [] => False

instance formatEmulated.instDecidable (longBits : Nat) (m : Mem) (fuel : Nat) :
    (items : List FmtItem) → (ws : List Nat) → Decidable (formatEmulated longBits m fuel items ws)
  | [], ws => inferInstanceAs (Decidable (ws = []))
  | .lit _ _ :: its, ws => formatEmulated.instDecidable longBits m fuel its ws
  | .escape :: _, _ => isFalse id
  | .conv c :: its, w :: ws =>
    have := formatEmulated.instDecidable longBits m fuel its ws
    inferInstanceAs (Decidable (c.Emulated longBits m fuel w ∧ _))
  | .conv _ :: _, [] => isFalse id

theorem derefArgs_cons (read : Nat → Option (List Char)) (b : Bool) (ks : List Bool) (w : Nat)
    (ws : List Nat) :
  derefArgs read (b :: ks) (w :: ws) =
    (if b then (read w).map PyArg.str else some (.int w)).bind fun v =>
      (derefArgs read ks ws).map (v :: ·)
  := by
  cases b <;> simp [derefArgs, Option.bind_map, Function.comp_def]

/-- A conversion without `*` takes its width and precision from its text and its value from the
next word. -/
theorem cConv_of_plain (longBits : Nat) (m : Mem) (fuel : Nat) {c : ConvSpec}
    (hw : c.width ≠ some .star) (hp : c.precision ≠ some .star) (w : Nat) (ws : List Nat) :
  cConv longBits m fuel c (w :: ws) =
    (cConvert longBits m fuel c (numeralValue 0 c.widthDigits) (decide (Flag.minus ∈ c.flags))
      c.precValue w).map (·, ws)
  := by
  have hW : cWidth c (w :: ws) = some ((numeralValue 0 c.widthDigits, false), w :: ws) := by
    rcases hcw : c.width with _ | _ | _
    · simp [cWidth, hcw]
    · simp [cWidth, hcw]
    · exact absurd hcw hw
  have hP : cPrecision c (w :: ws) = some (c.precValue, w :: ws) := by
    rcases hcp : c.precision with _ | _ | _
    · simp [cPrecision, hcp]
    · simp [cPrecision, hcp]
    · exact absurd hcp hp
  simp only [cConv, hW, hP, Option.bind, Bool.false_or]

/-- An emulated plain format consumes one word for each conversion. -/
theorem formatEmulated_length {longBits : Nat} {m : Mem} {fuel : Nat} :
    ∀ (items : List FmtItem), (∀ it ∈ items, it.Plain) → ∀ ws,
      formatEmulated longBits m fuel items ws → ws.length = (slots items).length
  | [], _, ws, he => by rw [he]; rfl
  | .lit _ _ :: its, hp, ws, he =>
    formatEmulated_length its (fun it h => hp it (List.mem_cons_of_mem _ h)) ws he
  | .escape :: _, _, _, he => he.elim
  | .conv c :: its, hp, _ :: ws, ⟨_, he⟩ => by
    have := formatEmulated_length its (fun it h => hp it (List.mem_cons_of_mem _ h)) ws he
    simp only [slots, List.flatMap_cons, FmtItem.slots,
      ConvSpec.slots_of_plain (hp _ (List.mem_cons_self _ _))] at this ⊢
    simp [this]
  | .conv _ :: _, _, [], he => he.elim

/-- **A format's text.** For an emulated plain format, the string loop leaves the arguments `%`
reads, and `%` writes, item by item, the text whose bytes C writes: ASCII but for the format's own
characters. -/
theorem pyItems_emulated (rt : PyRuntime) (longBits : Nat) (m : Mem) (fuel : Nat) :
    ∀ (items : List FmtItem), (∀ it ∈ items, it.Plain) → ∀ ws,
      formatEmulated longBits m fuel items ws →
    ∃ args out, derefArgs (fun a => readText m false a fuel) (slots items) ws = some args ∧
      pyItems rt (items.map FmtItem.rewrite) args = .ok out ∧
      cFormat longBits m fuel items ws = some (encodeUtf8 out) ∧
      ∀ ch ∈ out, ch.toNat < 0x80 ∨ ∃ h, FmtItem.lit ch h ∈ items
  | [], _, ws, he => ⟨[], [], by rw [he]; rfl, rfl, rfl, by simp⟩
  | .lit c hc :: its, hp, ws, he => by
    obtain ⟨args, out, hd, hpy, hC, hascii⟩ :=
      pyItems_emulated rt longBits m fuel its (fun it h => hp it (List.mem_cons_of_mem _ h)) ws he
    refine ⟨args, c :: out, hd, ?_, ?_, ?_⟩
    · simp [pyItems, FmtItem.rewrite, hpy, Except.map]
    · simp [cFormat, hC, encodeUtf8]
    · rintro ch (_ | ⟨_, h⟩)
      · exact .inr ⟨hc, List.mem_cons_self _ _⟩
      · rcases hascii ch h with h | ⟨h', hm⟩
        · exact .inl h
        · exact .inr ⟨h', List.mem_cons_of_mem _ hm⟩
  | .escape :: _, _, _, he => he.elim
  | .conv c :: its, hp, w :: ws, ⟨hc, he⟩ => by
    have hplain := hp _ (List.mem_cons_self _ _)
    obtain ⟨v, out₁, hv, hpy₁, hC₁, hascii₁⟩ := convert_emulated rt hplain hc
    obtain ⟨args, out₂, hd, hpy₂, hC₂, hascii₂⟩ :=
      pyItems_emulated rt longBits m fuel its (fun it h => hp it (List.mem_cons_of_mem _ h)) ws he
    refine ⟨v :: args, out₁ ++ out₂, ?_, ?_, ?_, ?_⟩
    · simp only [slots, List.flatMap_cons, FmtItem.slots, ConvSpec.slots_of_plain hplain,
        List.singleton_append, derefArgs_cons, decide_eq_true_eq] at hd ⊢
      rw [hv]
      simp [hd]
    · rw [List.map_cons, FmtItem.rewrite, pyItems, hpy₁ args]
      simp only [Except.bind, hpy₂, Except.map]
    · rw [cFormat, cConv_of_plain longBits m fuel hplain.1 hplain.2.1, hC₁]
      simp [hC₂, encodeUtf8_append]
    · intro ch hch
      rcases List.mem_append.mp hch with h | h
      · exact .inl (hascii₁ ch h)
      · rcases hascii₂ ch h with h | ⟨h', hm⟩
        · exact .inl h
        · exact .inr ⟨h', List.mem_cons_of_mem _ hm⟩
  | .conv _ :: _, _, [], he => he.elim

section Calls

variable {P R : Type}

/-- The run of `__common_printf` on an emulated plain format: `%` returns the text whose bytes C
writes. -/
theorem commonPrintf_emulated (rt : PyRuntime) (longBits : Nat) (m : Mem) (l : Ledger P R)
    (fuel : Nat) (items : List FmtItem) (hplain : ∀ it ∈ items, it.Plain) (ws : List Nat)
    (he : formatEmulated longBits m fuel items ws) :
    ∃ out l', commonPrintf (fun f a => (pyFormat rt f a).toOption) m l fuel (formatText items)
        (ws.map .int) false = some (out, l') ∧
      cFormat longBits m fuel items ws = some (encodeUtf8 out) ∧
      ∀ ch ∈ out, ch.toNat < 0x80 ∨ ∃ h, FmtItem.lit ch h ∈ items := by
  obtain ⟨args, out, hd, hpy, hC, hascii⟩ := pyItems_emulated rt longBits m fuel items hplain ws he
  have hcall := commonPrintfCall_formatText m l fuel items hplain false ws
    (formatEmulated_length items hplain ws he)
  rw [cCall, hd, Option.map_some'] at hcall
  obtain ⟨⟨call, l'⟩, hr, rfl⟩ := Option.map_eq_some'.mp hcall
  refine ⟨out, l', ?_, hC, hascii⟩
  rw [commonPrintf, hr]
  simp [pyFormat_formatText rt _ (rewrite_no_star (no_star_of_plain hplain)), hpy, Except.toOption]

/-- The count `printf` returns, `len(out)`, is the number of bytes written when the format is
ASCII. -/
theorem length_of_ascii_format {items : List FmtItem} {out : List Char}
    (hascii : ∀ ch ∈ out, ch.toNat < 0x80 ∨ ∃ h, FmtItem.lit ch h ∈ items)
    (hfmt : ∀ c ∈ formatText items, c.toNat < 0x80) :
    (encodeUtf8 out).length = out.length :=
  length_encodeUtf8_of_ascii fun ch h => (hascii ch h).elim id fun ⟨_, hm⟩ =>
    hfmt ch (List.mem_flatMap.mpr ⟨_, hm, List.mem_singleton_self ch⟩)

/-- **The emulated `printf` writes what C's `printf` writes.** For every plain format (no `%%`,
no `*`, bare `%s`) and every argument words it is emulated with, on every guest memory, ledger
and `%` runtime, `printf` returns normally, writes to standard output the bytes C's `printf`
writes, and returns their count, as C does, when the format is ASCII. -/
theorem printf_eq_cFormat (rt : PyRuntime) (longBits : Nat) (m : Mem) (l : Ledger P R)
    (fuel : Nat) (items : List FmtItem) (hplain : ∀ it ∈ items, it.Plain) (ws : List Nat)
    (he : formatEmulated longBits m fuel items ws) :
    ∃ bytes l' n, cFormat longBits m fuel items ws = some bytes ∧
      printf (fun f a => (pyFormat rt f a).toOption) m l fuel (formatText items) (ws.map .int)
        false = some (bytes, l', n) ∧
      ((∀ c ∈ formatText items, c.toNat < 0x80) → n = bytes.length) := by
  obtain ⟨out, l', hpr, hC, hascii⟩ := commonPrintf_emulated rt longBits m l fuel items hplain ws he
  exact ⟨_, l', out.length, hC, by simp [printf, hpr],
    fun hfmt => (length_of_ascii_format hascii hfmt).symm⟩

/-- The format `%5d|%s|%#x|%-3c|%llx`. -/
def sampleFormat : List FmtItem :=
  [.conv ⟨[], some (.num ['5'] (by decide)), none, .none, .d⟩, .lit '|' (by decide),
    .conv ⟨[], none, none, .none, .s⟩, .lit '|' (by decide),
    .conv ⟨[.hash], none, none, .none, .x⟩, .lit '|' (by decide),
    .conv ⟨[.minus], some (.num ['3'] (by decide)), none, .none, .c⟩, .lit '|' (by decide),
    .conv ⟨[], none, none, .ll, .x⟩]

/-- A guest memory holding the string `hi` at address 100. -/
def sampleMem : Mem := fun a => if a = 100 then 104 else if a = 101 then 105 else 0

example : cFormat 64 sampleMem 4 sampleFormat [42, 100, 255, 65, 0xABCDEF0123] =
    some (encodeUtf8 "   42|hi|0xff|A  |abcdef0123".toList) := by decide

theorem printf_eq_cFormat_sample :
    (∀ it ∈ sampleFormat, it.Plain) ∧ formatEmulated 64 sampleMem 4 sampleFormat [42, 100, 255, 65, 0xABCDEF0123] ∧
    ∃ bytes l' n, cFormat 64 sampleMem 4 sampleFormat [42, 100, 255, 65, 0xABCDEF0123] = some bytes ∧
      printf (fun f a => (pyFormat ⟨fun _ => true, fun _ _ _ _ => none⟩ f a).toOption) sampleMem
        (Ledger.init : Ledger Unit Unit) 4 (formatText sampleFormat)
        ([42, 100, 255, 65, 0xABCDEF0123].map .int) false = some (bytes, l', n) ∧
      ((∀ c ∈ formatText sampleFormat, c.toNat < 0x80) → n = bytes.length) :=
  ⟨by decide, by decide, printf_eq_cFormat ⟨fun _ => true, fun _ _ _ _ => none⟩ 64 sampleMem
    Ledger.init 4 sampleFormat (by decide) _ (by decide)⟩

/-- **The emulated `sprintf` writes what C's `sprintf` writes.** Under the same conditions, for an
ASCII format, `sprintf` returns normally, writes at `buff` the bytes C's `sprintf` writes and its
NUL, and returns their count without the NUL, as C does. -/
theorem sprintf_eq_cFormat (rt : PyRuntime) (longBits : Nat) (m : Mem) (l : Ledger P R)
    (fuel buff : Nat) (items : List FmtItem) (hplain : ∀ it ∈ items, it.Plain)
    (hfmt : ∀ c ∈ formatText items, c.toNat < 0x80) (ws : List Nat)
    (he : formatEmulated longBits m fuel items ws) :
    ∃ bytes l', cFormat longBits m fuel items ws = some bytes ∧
      sprintf (fun f a => (pyFormat rt f a).toOption) m l fuel buff (formatText items)
        (ws.map .int) false = some (m.write buff (bytes ++ [0]), l', bytes.length) := by
  obtain ⟨out, l', hpr, hC, hascii⟩ := commonPrintf_emulated rt longBits m l fuel items hplain ws he
  refine ⟨_, l', hC, ?_⟩
  rw [sprintf_of_commonPrintf hpr, length_of_ascii_format hascii hfmt]
  simp [encodeUtf8_append]
  rfl

theorem sprintf_eq_cFormat_sample :
    (∀ it ∈ sampleFormat, it.Plain) ∧ (∀ c ∈ formatText sampleFormat, c.toNat < 0x80) ∧
    formatEmulated 64 sampleMem 4 sampleFormat [42, 100, 255, 65, 0xABCDEF0123] ∧
    ∃ bytes l', cFormat 64 sampleMem 4 sampleFormat [42, 100, 255, 65, 0xABCDEF0123] = some bytes ∧
      sprintf (fun f a => (pyFormat ⟨fun _ => true, fun _ _ _ _ => none⟩ f a).toOption) sampleMem
        (Ledger.init : Ledger Unit Unit) 4 200 (formatText sampleFormat)
        ([42, 100, 255, 65, 0xABCDEF0123].map .int) false =
        some (sampleMem.write 200 (bytes ++ [0]), l', bytes.length) :=
  ⟨by decide, by decide, by decide, sprintf_eq_cFormat ⟨fun _ => true, fun _ _ _ _ => none⟩ 64
    sampleMem Ledger.init 4 200 sampleFormat (by decide) (by decide) _ (by decide)⟩

/-! ### Where the emulation parts from C -/

/-- `%` raises on items with a conversion it reads as `l`. -/
theorem pyItems_l_error (rt : PyRuntime) :
    ∀ (items : List FmtItem) (args : List PyArg), (∃ c, FmtItem.conv c ∈ items ∧ c.pyChar = 'l') →
      ∃ e, pyItems rt items args = .error e
  | [], _, ⟨_, hc, _⟩ => absurd hc (List.not_mem_nil _)
  | .lit _ _ :: its, args, ⟨c, hc, hl⟩ => by
    obtain ⟨e, he⟩ := pyItems_l_error rt its args ⟨c, List.mem_of_ne_of_mem (by simp) hc, hl⟩
    exact ⟨e, by simp [pyItems, he, Except.map]⟩
  | .escape :: its, args, ⟨c, hc, hl⟩ => by
    obtain ⟨e, he⟩ := pyItems_l_error rt its args ⟨c, List.mem_of_ne_of_mem (by simp) hc, hl⟩
    exact ⟨e, by simp [pyItems, he, Except.map]⟩
  | .conv c' :: its, args, ⟨c, hc, hl⟩ => by
    rw [pyItems]
    rcases List.mem_cons.mp hc with h | h
    · rw [← FmtItem.conv.inj h]
      cases hp : c.pyParse with
      | error e => exact ⟨e, rfl⟩
      | ok a =>
        obtain ⟨e, he⟩ := convert_l_error rt a args
        exact ⟨e, by simp [Except.bind, hl, he]⟩
    · cases hr : c'.pyParse.bind fun a => convert rt a c'.pyChar args with
      | error e => exact ⟨e, rfl⟩
      | ok r =>
        obtain ⟨e, he⟩ := pyItems_l_error rt its r.2.1 ⟨c, h, hl⟩
        exact ⟨e, by simp [Except.bind, he, Except.map]⟩

/-- **`ll` other than in `%llx` makes the emulation raise.** For every format without `%%` or
`*` that has a conversion with the length `ll` other than a bare `%llx` (`%lld`, `%llu`, `%08llx`,
...), `printf` and `sprintf` raise on every argument list, string width and guest memory: the
format is not rewritten, and `%` skips one `l` and stops at the second. -/
theorem printf_ll_raises (rt : PyRuntime) (m : Mem) (l : Ledger P R) (fuel buff : Nat)
    (items : List FmtItem) (hesc : ∀ it ∈ items, it ≠ .escape)
    (hstar : ∀ c, FmtItem.conv c ∈ items → c.width ≠ some .star ∧ c.precision ≠ some .star)
    {c : ConvSpec} (hc : FmtItem.conv c ∈ items) (hll : c.length = .ll)
    (hbare : c ≠ ⟨[], none, none, .ll, .x⟩) (args : List PyArg) (wstring : Bool) :
    printf (fun f a => (pyFormat rt f a).toOption) m l fuel (formatText items) args wstring = none ∧
      sprintf (fun f a => (pyFormat rt f a).toOption) m l fuel buff (formatText items) args
        wstring = none := by
  have hrw : c.rewrite = c := by
    have hp : c ≠ ⟨[], none, none, .none, .p⟩ := fun h => by rw [h] at hll; cases hll
    simp only [ConvSpec.rewrite, if_neg hbare, if_neg hp]
  have hl : ∃ c, FmtItem.conv c ∈ items.map FmtItem.rewrite ∧ c.pyChar = 'l' :=
    ⟨c, List.mem_map.mpr ⟨_, hc, by rw [FmtItem.rewrite, hrw]⟩, by simp [ConvSpec.pyChar, hll]⟩
  have hpy : ∀ args', (pyFormat rt (formatText (items.map FmtItem.rewrite)) args').toOption = none :=
    fun args' => by
      obtain ⟨e, he⟩ := pyItems_l_error rt _ args' hl
      rw [pyFormat_formatText rt _ (rewrite_no_star hstar), he]
      rfl
  have hcommon : commonPrintf (fun f a => (pyFormat rt f a).toOption) m l fuel (formatText items)
      args wstring = none := by
    simp only [commonPrintf, commonPrintfCall, pyReplace_pyReplace_formatText items hesc]
    cases commonPrintfLoop m wstring fuel ((formatText items).splitOn '%' |>.drop 1) 0 args l <;>
      simp [hpy]
  simp [printf, sprintf, hcommon]

theorem printf_ll_raises_lld :
    printf (fun f a => (pyFormat ⟨fun _ => true, fun _ _ _ _ => none⟩ f a).toOption) sampleMem
      (Ledger.init : Ledger Unit Unit) 4 (formatText [.conv ⟨[], none, none, .ll, .d⟩]) [.int 5]
      false = none ∧
    sprintf (fun f a => (pyFormat ⟨fun _ => true, fun _ _ _ _ => none⟩ f a).toOption) sampleMem
      (Ledger.init : Ledger Unit Unit) 4 200 (formatText [.conv ⟨[], none, none, .ll, .d⟩]) [.int 5]
      false = none :=
  printf_ll_raises _ _ _ _ _ _ (by decide) (fun c hc => by cases List.mem_singleton.mp hc; decide)
    (List.mem_singleton_self _) rfl (by decide) _ _

theorem pyFormat_percent_d (rt : PyRuntime) (w : Nat) :
    pyFormat rt "%d".toList [.int w] = .ok (Nat.toDigits 10 w) := by
  have h := pyFormat_formatText rt [.conv ⟨[], none, none, .none, .d⟩]
    (fun c hc => by cases List.mem_singleton.mp hc; decide) [.int w]
  have hw : ¬(ConvSpec.precValue ⟨[], none, none, .none, .d⟩ = some 0 ∧ w = 0) := by
    simp [ConvSpec.precValue]
  have hc := pyConvert_integer rt ⟨[], none, none, .none, .d⟩ (by decide) (by decide)
    (by decide) hw []
  refine h.trans ?_
  simp only [pyItems, ConvSpec.pyChar] at hc ⊢
  rw [if_neg (by decide), hc]
  show Except.ok (cPad ' ' '0' false false 0 [] ((cDigits 10 none w).map fun d => d) ++ []) = _
  rw [cDigits_eq _ (by simp)]
  simp [cPad]

theorem cFormat_percent_d_of_sign_bit (longBits : Nat) (m : Mem) (fuel w : Nat)
    (hw : 2 ^ 31 ≤ w ∧ w < 2 ^ 32) :
    cFormat longBits m fuel [.conv ⟨[], none, none, .none, .d⟩] [w] =
      some (encodeUtf8 ('-' :: Nat.toDigits 10 (2 ^ 32 - w))) := by
  have hs : toSigned 32 w = -((2 ^ 32 - w : Nat) : Int) := by
    rw [toSigned, Nat.mod_eq_of_lt hw.2, if_neg (by omega)]
    omega
  have hneg : -((2 ^ 32 - w : Nat) : Int) < 0 := by omega
  have h32 : w < 4294967296 := hw.2
  have hconv : cConvert longBits m fuel ⟨[], none, none, .none, .d⟩ 0 false none w =
      some (cInteger ⟨[], none, none, .none, .d⟩ 0 false none (toSigned 32 w)) := rfl
  rw [cFormat, cConv_of_plain longBits m fuel (by decide) (by decide) w []]
  simp only [numeralValue, List.foldl_nil, ConvSpec.widthDigits, ConvSpec.precValue,
    List.not_mem_nil, decide_False, hconv, Option.map_some', Option.some_bind, cFormat,
    List.append_nil]
  rw [hs, cInteger, cDigits_eq _ (by simp)]
  simp [cPad, hneg, Conv.base, h32, ← encodeUtf8_append]

/-- `va_list` hands `%` the words as the nonnegative ints they are: `%d` writes a 32-bit word
with its sign bit set as that unsigned number, where C's `printf` writes the negative `int` the
word stands for. -/
theorem printf_d_sign_bit (rt : PyRuntime) (longBits : Nat) (m : Mem) (l : Ledger P R)
    (fuel w : Nat) (hw : 2 ^ 31 ≤ w ∧ w < 2 ^ 32) :
    printf (fun f a => (pyFormat rt f a).toOption) m l fuel "%d".toList [.int w] false =
        some (encodeUtf8 (Nat.toDigits 10 w), l, (Nat.toDigits 10 w).length) ∧
      cFormat longBits m fuel [.conv ⟨[], none, none, .none, .d⟩] [w] =
        some (encodeUtf8 ('-' :: Nat.toDigits 10 (2 ^ 32 - w))) := by
  refine ⟨?_, cFormat_percent_d_of_sign_bit longBits m fuel w hw⟩
  have hcall : commonPrintfCall m l fuel "%d".toList [.int w] false =
      some (("%d".toList, [.int w]), l) := rfl
  rw [printf, commonPrintf, hcall, Option.some_bind]
  dsimp only
  rw [pyFormat_percent_d]
  rfl

theorem printf_d_sign_bit_minus_one :
    (2 ^ 31 ≤ 0xFFFFFFFF ∧ 0xFFFFFFFF < 2 ^ 32) ∧
      printf (fun f a => (pyFormat ⟨fun _ => true, fun _ _ _ _ => none⟩ f a).toOption) sampleMem
          (Ledger.init : Ledger Unit Unit) 4 "%d".toList [.int 0xFFFFFFFF] false =
        some (encodeUtf8 (Nat.toDigits 10 0xFFFFFFFF), Ledger.init,
          (Nat.toDigits 10 0xFFFFFFFF).length) ∧
      cFormat 32 sampleMem 4 [.conv ⟨[], none, none, .none, .d⟩] [0xFFFFFFFF] =
        some (encodeUtf8 ('-' :: Nat.toDigits 10 (2 ^ 32 - 0xFFFFFFFF))) :=
  ⟨by decide, printf_d_sign_bit _ 32 sampleMem Ledger.init 4 0xFFFFFFFF (by decide)⟩

theorem pyFormat_percent_c (rt : PyRuntime) (w : Nat) :
    pyFormat rt "%c".toList [.int w] =
      if 0x10FFFF < w then .error .overflow
      else if 0xD800 ≤ w ∧ w ≤ 0xDFFF then .error .surrogate
      else .ok [Char.ofNat w] := by
  have h := pyFormat_formatText rt [.conv ⟨[], none, none, .none, .c⟩]
    (fun c hc => by cases List.mem_singleton.mp hc; decide) [.int w]
  refine h.trans ?_
  have hout : ∀ x : Char, argOutput ⟨PyFlags.empty.add [], none, none⟩ 'c' false [x] = [x] :=
    fun _ => rfl
  have hparse : ConvSpec.pyParse ⟨[], none, none, .none, .c⟩ =
      .ok ⟨PyFlags.empty.add [], none, none⟩ := rfl
  simp only [pyItems, ConvSpec.pyChar, if_neg (show LenMod.none ≠ .ll by decide), hparse,
    Except.bind, convert, nextArg, Conv.char, formatArg_c]
  split_ifs <;> simp [hout, Except.map, pyItems]

theorem cFormat_percent_c (longBits : Nat) (m : Mem) (fuel w : Nat) :
    cFormat longBits m fuel [.conv ⟨[], none, none, .none, .c⟩] [w] = some [UInt8.ofNat w] := by
  rw [cFormat, cConv_of_plain longBits m fuel (by decide) (by decide) w []]
  rfl

/-- `%c` writes `chr(w)` of the argument word `w`, in UTF-8, and counts it as one character; it
raises for a surrogate and for a word beyond `0x10FFFF`, such as a negative `char` promoted to
`int`. C's `printf` writes the byte `w % 256`. -/
theorem printf_c_char (rt : PyRuntime) (longBits : Nat) (m : Mem) (l : Ledger P R)
    (fuel w : Nat) :
    printf (fun f a => (pyFormat rt f a).toOption) m l fuel "%c".toList [.int w] false =
        (if 0x10FFFF < w ∨ (0xD800 ≤ w ∧ w ≤ 0xDFFF) then none
          else some (encodeUtf8 [Char.ofNat w], l, 1)) ∧
      cFormat longBits m fuel [.conv ⟨[], none, none, .none, .c⟩] [w] =
        some [UInt8.ofNat w] := by
  refine ⟨?_, cFormat_percent_c longBits m fuel w⟩
  have hcall : commonPrintfCall m l fuel "%c".toList [.int w] false =
      some (("%c".toList, [.int w]), l) := rfl
  rw [printf, commonPrintf, hcall, Option.some_bind]
  dsimp only
  rw [pyFormat_percent_c]
  split_ifs <;> first | rfl | omega

/-- A format of one conversion whose piece does not start with `s`: `__common_printf` reads no
string and only rewrites the conversion. -/
theorem commonPrintfCall_conv (m : Mem) (l : Ledger P R) (fuel : Nat) (c : ConvSpec)
    (hs : c.body.head? ≠ some 's') (args : List PyArg) (wstring : Bool) :
    commonPrintfCall m l fuel (formatText [.conv c]) args wstring =
      some ((formatText [.conv c.rewrite], args), l) := by
  rw [commonPrintfCall, splitOn_formatText, pyReplace_pyReplace_formatText [.conv c] (by simp)]
  simp [formatPieces, commonPrintfLoop, hs, FmtItem.rewrite]

section WidthS

variable (ds : List Char) (hds : ds ≠ [] ∧ ∀ d ∈ ds, d.isDigit)

theorem body_head?_width_s :
    (ConvSpec.body ⟨[], some (.num ds hds), none, .none, .s⟩).head? ≠ some 's' := by
  obtain ⟨d, ds', rfl⟩ := List.exists_cons_of_ne_nil hds.1
  have hd := hds.2 d (List.mem_cons_self _ _)
  simp only [ConvSpec.body, List.map_nil, Option.map_some', Count.chars, Option.getD_some,
    Option.map_none', Option.getD_none, LenMod.chars, List.nil_append, List.append_nil,
    List.cons_append, List.head?_cons, ne_eq, Option.some.injEq]
  rintro rfl
  exact absurd hd (by decide)

/-- `%Ns` of an int: its decimal digits behind spaces up to the width. -/
theorem pyFormat_width_s (rt : PyRuntime) (hwidth : numeralValue 0 ds ≤ pySsizeTMax) (w : Nat) :
    pyFormat rt (formatText [.conv ⟨[], some (.num ds hds), none, .none, .s⟩]) [.int w] =
      .ok (List.replicate (numeralValue 0 ds - (Nat.toDigits 10 w).length) ' ' ++
        Nat.toDigits 10 w) := by
  set c : ConvSpec := ⟨[], some (.num ds hds), none, .none, .s⟩ with hc
  have hwd : c.widthDigits = ds := rfl
  have hparse : c.pyParse = .ok ⟨c.pyFlags, c.pyWidth, none⟩ := by
    rw [ConvSpec.pyParse, if_neg (by rw [hwd]; omega), if_neg (by simp [hc, ConvSpec.precValue])]
    simp [hc, ConvSpec.precValue]
  have hout : argOutput ⟨c.pyFlags, c.pyWidth, none⟩ 's' false (Nat.toDigits 10 w) =
      List.replicate (numeralValue 0 ds - (Nat.toDigits 10 w).length) ' ' ++ Nat.toDigits 10 w := by
    have h := argOutput_eq_cPad ⟨c.pyFlags, c.pyWidth, none⟩ 's' false (fun _ => rfl)
      (Nat.toDigits 10 w) (by simp)
    have hnp : altPrefix c.pyFlags.alt 's' = [] := by simp [altPrefix]
    rw [hnp, List.nil_append] at h
    rw [h, c.pyFlags_eq, ConvSpec.pyWidth_getD, hwd]
    simp [cPad, hc]
  have hs : formatArg rt ⟨c.pyFlags, c.pyWidth, none⟩ 's' (.int w) =
      .ok (argOutput ⟨c.pyFlags, c.pyWidth, none⟩ 's' false (Nat.toDigits 10 w)) := by
    simp [formatArg]
  rw [pyFormat_formatText rt [.conv c] fun c' h' => by cases List.mem_singleton.mp h'; simp [hc]]
  simp only [pyItems, ConvSpec.pyChar, hparse, if_neg (show c.length ≠ .ll by simp [hc]),
    show c.conv.char = 's' by simp [hc, Conv.char], Except.bind, convert, nextArg, hs, hout]
  simp [Except.map, pyItems]

/-- C's `%Ns`: the string the argument points to, behind spaces up to the width. -/
theorem cFormat_width_s (longBits : Nat) (m : Mem) (fuel : Nat) (h0 : ds.head? ≠ some '0')
    (w : Nat) :
    cFormat longBits m fuel [.conv ⟨[], some (.num ds hds), none, .none, .s⟩] [w] =
      (cString m w fuel).map fun bs =>
        List.replicate (numeralValue 0 ds - bs.length) 0x20 ++ bs := by
  set c : ConvSpec := ⟨[], some (.num ds hds), none, .none, .s⟩ with hc
  have hzero : c.zeroFlag = false := by
    simpa [hc, ConvSpec.zeroFlag, ConvSpec.widthDigits] using h0
  have hconv : cConvert longBits m fuel c (numeralValue 0 c.widthDigits)
      (decide (Flag.minus ∈ c.flags)) c.precValue w =
        (cString m w fuel).map (cPad 0x20 0x30 false false (numeralValue 0 ds) []) := by
    unfold cConvert
    simp only [hzero]
    simp [hc, ConvSpec.widthDigits, ConvSpec.precValue]
  rw [cFormat, cConv_of_plain longBits m fuel (by simp [hc]) (by simp [hc]) w [], hconv]
  cases cString m w fuel <;> simp [cFormat, cPad]

/-- `__common_printf` reads the string of an `s` conversion only when its piece of the format
starts with `s`: with a width, `%Ns` writes the pointer itself in decimal, padded to the width,
where C's `printf` writes the string it points to. -/
theorem printf_s_width_pointer (rt : PyRuntime) (longBits : Nat) (m : Mem) (l : Ledger P R)
    (fuel : Nat) (h0 : ds.head? ≠ some '0') (hwidth : numeralValue 0 ds ≤ pySsizeTMax)
    (w : Nat) :
    printf (fun f a => (pyFormat rt f a).toOption) m l fuel
        (formatText [.conv ⟨[], some (.num ds hds), none, .none, .s⟩]) [.int w] false =
      some (encodeUtf8 (List.replicate (numeralValue 0 ds - (Nat.toDigits 10 w).length) ' ' ++
          Nat.toDigits 10 w), l,
        (List.replicate (numeralValue 0 ds - (Nat.toDigits 10 w).length) ' ' ++
          Nat.toDigits 10 w).length) ∧
      cFormat longBits m fuel [.conv ⟨[], some (.num ds hds), none, .none, .s⟩] [w] =
        (cString m w fuel).map fun bs =>
          List.replicate (numeralValue 0 ds - bs.length) 0x20 ++ bs := by
  refine ⟨?_, cFormat_width_s ds hds longBits m fuel h0 w⟩
  have hrw : ConvSpec.rewrite ⟨[], some (.num ds hds), none, .none, .s⟩ =
      ⟨[], some (.num ds hds), none, .none, .s⟩ := by
    simp [ConvSpec.rewrite]
  rw [printf, commonPrintf, commonPrintfCall_conv m l fuel _ (body_head?_width_s ds hds), hrw,
    Option.some_bind]
  dsimp only
  rw [pyFormat_width_s ds hds rt hwidth]
  rfl

end WidthS

theorem printf_s_width_pointer_five :
    (['5'].head? ≠ some '0' ∧ numeralValue 0 ['5'] ≤ pySsizeTMax) ∧
      printf (fun f a => (pyFormat ⟨fun _ => true, fun _ _ _ _ => none⟩ f a).toOption) sampleMem
          (Ledger.init : Ledger Unit Unit) 4
          (formatText [.conv ⟨[], some (.num ['5'] (by decide)), none, .none, .s⟩]) [.int 100]
          false =
        some (encodeUtf8 (List.replicate (numeralValue 0 ['5'] - (Nat.toDigits 10 100).length)
            ' ' ++ Nat.toDigits 10 100), Ledger.init,
          (List.replicate (numeralValue 0 ['5'] - (Nat.toDigits 10 100).length) ' ' ++
            Nat.toDigits 10 100).length) ∧
      cFormat 32 sampleMem 4 [.conv ⟨[], some (.num ['5'] (by decide)), none, .none, .s⟩]
          [100] =
        (cString sampleMem 100 4).map fun bs =>
          List.replicate (numeralValue 0 ['5'] - bs.length) 0x20 ++ bs :=
  ⟨by decide, printf_s_width_pointer ['5'] (by decide) _ 32 sampleMem Ledger.init 4 (by decide)
    (by decide) 100⟩

end Calls

/-! ### Reading back what `sprintf` wrote -/

section ReadBack

variable {P R : Type}

/-- For a NUL-free ASCII text, `sprintf` returns the number of code units it wrote before the
NUL, and `read_cstring` (or `read_wstring` when wide) at `buff` returns the text, on every
memory that agrees with the one `sprintf` leaves on the bytes it wrote. -/
theorem sprintf_read_back (pyMod : List Char → List PyArg → Option (List Char)) (m : Mem)
    (l : Ledger P R) (fuel buff : Nat) (format : List Char) (args : List PyArg) (wstring : Bool)
    (out : List Char) (l' : Ledger P R)
    (hout : commonPrintf pyMod m l fuel format args wstring = some (out, l'))
    (hascii : ∀ c ∈ out, c.toNat < 0x80) (hnul : '\x00' ∉ out) :
  ∃ m', sprintf pyMod m l fuel buff format args wstring = some (m', l', out.length) ∧
    out.length = (if wstring then (encodeUtf16le out).length / 2 else (encodeUtf8 out).length) ∧
    ∀ fuel', out.length < fuel' → ∀ m₂ : Mem,
      (∀ a, buff ≤ a → a < buff + (out.length + 1) * (if wstring then 2 else 1) → m₂ a = m' a) →
      ∀ l₂ : Ledger P R,
        ((if wstring then readWstring else readCstring) m₂ l₂ buff fuel').map Prod.fst = some out
  := by
  refine ⟨_, sprintf_of_commonPrintf hout buff, ?_, fun fuel' hf m₂ hm l₂ => ?_⟩
  · cases wstring
    · simp [length_encodeUtf8_of_ascii hascii]
    · simp [length_encodeUtf16le_of_ascii hascii]
  · rw [readWstring_or_readCstring, Option.map_map]
    cases wstring
    · simp [readText, readString_write_encodeUtf8 hascii hnul hf (by simpa using hm)]
    · simp [readText, readString_write_encodeUtf16le hascii hnul hf (by simpa using hm),
        filter_flatMap_nul hnul]

theorem sprintf_read_back_hi :
    commonPrintf (fun _ _ => some "hi".toList) (fun _ => 0) (Ledger.init : Ledger Unit Unit) 1 [] []
      false = some ("hi".toList, Ledger.init) ∧
    (∀ c ∈ "hi".toList, c.toNat < 0x80) ∧ '\x00' ∉ "hi".toList ∧
    ∃ m', sprintf (fun _ _ => some "hi".toList) (fun _ => 0) (Ledger.init : Ledger Unit Unit) 1 0
        [] [] false =
        some (m', Ledger.init, "hi".toList.length) ∧
      "hi".toList.length = (if false then (encodeUtf16le "hi".toList).length / 2
        else (encodeUtf8 "hi".toList).length) ∧
      ∀ fuel', "hi".toList.length < fuel' → ∀ m₂ : Mem,
        (∀ a, 0 ≤ a → a < 0 + ("hi".toList.length + 1) * (if false then 2 else 1) → m₂ a = m' a) →
        ∀ l₂ : Ledger Unit Unit,
          ((if false then readWstring else readCstring) m₂ l₂ 0 fuel').map Prod.fst = some "hi".toList
  := ⟨rfl, by decide, by decide, sprintf_read_back _ _ _ 1 0 [] [] false _ _ rfl (by decide)
    (by decide)⟩

/-- A text beyond ASCII: on the format `é`, which `%` copies, `sprintf` returns 1 while the UTF-8
encoding of `é` has two bytes, and `read_cstring` and `read_wstring` read back nothing, each
chunk of `é` decoding alone to nothing or to a NUL. -/
theorem sprintf_non_ascii_unread :
    let pyMod := fun f a => (pyFormat ⟨fun _ => true, fun _ _ _ _ => none⟩ f a).toOption
    (sprintf pyMod (fun _ => 0) (Ledger.init : Ledger Unit Unit) 1 0 ['é'] [] false).map (·.2.2) =
      some 1 ∧ (encodeUtf8 ['é']).length = 2 ∧
    ((sprintf pyMod (fun _ => 0) (Ledger.init : Ledger Unit Unit) 1 0 ['é'] [] false).bind
      fun r => (readCstring r.1 r.2.1 0 3).map Prod.fst) = some [] ∧
    ((sprintf pyMod (fun _ => 0) (Ledger.init : Ledger Unit Unit) 1 0 ['é'] [] true).bind
      fun r => (readWstring r.1 r.2.1 0 3).map Prod.fst) = some []
  := by decide

end ReadBack

end QilingOs
