import QilingOs.Printf.Python

/-!
# `stringify`

`QlOsUtils.stringify(s)` decorates a string with quotation marks for the log: it is
`repr(s)` with its own quotes replaced by double quotes.

What such a text means is what Python reads it as, a string literal: `literalValue` reads one
between single or double quotes, with the escapes of the language reference (a backslash and
a newline, `\\`, the quotes, `\a` `\b` `\f` `\n` `\r` `\t` `\v`, up to three octal digits,
`\x` with two hexadecimal digits, `\u` with four and `\U` with eight, and a backslash kept
before any other character), a raw newline or carriage return or a quote of its own kind
ending it too early, and the text ending at its closing quote.

`repr` is a literal whose value is the string (`literalValue_pyRepr`): each character is read
back from what `reprChar` wrote for it (`literalBody_reprChar`). `stringify` is one exactly when
the string holds no double quote (`literalValue_stringify`): `repr` quotes with single quotes
then and leaves a double quote as it is, and that double quote ends the literal.
-/

namespace QilingOs

/-- `QlOsUtils.stringify(s)`: `f'"{repr(s)[1:-1]}"'`. -/
def stringify (isPrintable : Char → Bool) (s : List Char) : List Char :=
  Char.ofNat 0x22 :: ((pyRepr isPrintable s).drop 1).dropLast ++ [Char.ofNat 0x22]

example : stringify (fun _ => true) "a\tb\\".toList = "\"a\\tb\\\\\"".toList := by decide

/-! ### String literals -/

/-- The character a one-letter escape stands for: the backslash, the quotes, and the seven
named control characters. -/
def simpleEscape (e : Char) : Option Char :=
  if e = '\\' ∨ e = Char.ofNat 0x27 ∨ e = Char.ofNat 0x22 then some e
  else if e = 'a' then some (Char.ofNat 0x07)
  else if e = 'b' then some (Char.ofNat 0x08)
  else if e = 'f' then some (Char.ofNat 0x0C)
  else if e = 'n' then some '\n'
  else if e = 'r' then some '\r'
  else if e = 't' then some '\t'
  else if e = 'v' then some (Char.ofNat 0x0B)
  else none

/-- The value of a hexadecimal digit. -/
def hexValue (c : Char) : Option Nat :=
  if '0' ≤ c ∧ c ≤ '9' then some (c.toNat - 0x30)
  else if 'a' ≤ c ∧ c ≤ 'f' then some (c.toNat - 0x57)
  else if 'A' ≤ c ∧ c ≤ 'F' then some (c.toNat - 0x37)
  else none

/-- The number the hexadecimal digits `ds` write after the value `v`, none if one is not a
digit. -/
def hexNumber (v : Nat) : List Char → Option Nat
  | [] => some v
  | d :: ds => (hexValue d).bind fun h => hexNumber (v * 16 + h) ds

/-- Whether `c` is an octal digit. -/
def isOctDigit (c : Char) : Bool := '0' ≤ c ∧ c ≤ '7'

/-- The number the octal digits `ds` write. -/
def octalNumber (ds : List Char) : Nat :=
  ds.foldl (fun v d => v * 8 + (d.toNat - 0x30)) 0

/-- `\x`, `\u` or `\U` and the `k` hexadecimal digits after it: the character they write and
the `k + 1` characters read; none when fewer than `k` digits follow or the number is not a
character (a surrogate, which a `Char` cannot hold, or beyond `0x10FFFF`). -/
def hexEscape (k : Nat) (rest : List Char) : Option (List Char × Nat) :=
  if (rest.take k).length = k then
    (hexNumber 0 (rest.take k)).bind fun n =>
      if n.isValidChar then some ([Char.ofNat n], k + 1) else none
  else none

/-- The escape sequence after a backslash: the characters it stands for and how many
characters of the text it takes, or none when it is malformed. `\N{name}` names a character of
the Unicode database, which the model does not hold, and is taken as malformed. -/
def escape : List Char → Option (List Char × Nat)
  | [] => none
  | e :: rest =>
    if e = '\n' then some ([], 1)
    else match simpleEscape e with
    | some c => some ([c], 1)
    | none =>
      if e = 'x' then hexEscape 2 rest
      else if e = 'u' then hexEscape 4 rest
      else if e = 'U' then hexEscape 8 rest
      else if e = 'N' then none
      else if isOctDigit e then
        let ds := e :: (rest.take 2).takeWhile isOctDigit
        some ([Char.ofNat (octalNumber ds)], ds.length)
      else some (['\\', e], 1)

/-- The value of the text of a literal after its opening quote `q`, up to its closing quote,
which has to end the text. -/
def literalBody (q : Char) : List Char → Option (List Char)
  | [] => none
  | c :: rest =>
    if c = q then if rest = [] then some [] else none
    else if c = '\\' then
      (escape rest).bind fun r => (literalBody q (rest.drop r.2)).map (r.1 ++ ·)
    else if c = '\n' ∨ c = '\r' then none
    else (literalBody q rest).map (c :: ·)
termination_by l => l.length

/-- The value of a string literal between single or double quotes. -/
def literalValue : List Char → Option (List Char)
  | [] => none
  | q :: rest =>
    if q = Char.ofNat 0x27 ∨ q = Char.ofNat 0x22 then literalBody q rest else none

/-! ### Hexadecimal escapes -/

theorem char_toNat_lt (c : Char) : c.toNat < 0x110000 := by
  rcases c.valid with h | h <;> simp only [Char.toNat] <;> omega

theorem hexValue_hexDigitChar (n : Nat) : hexValue (hexDigitChar n) = some (n % 16) := by
  have h : ∀ k < 16, hexValue (Nat.digitChar k) = some k := by decide
  exact h _ (Nat.mod_lt _ (by omega))

theorem hexDigits_succ (k n : Nat) :
    hexDigits (k + 1) n = hexDigitChar (n / 16 ^ k) :: hexDigits k n := by
  simp [hexDigits, List.range_succ]

@[simp]
theorem length_hexDigits (k n : Nat) : (hexDigits k n).length = k := by
  simp [hexDigits]

theorem hexNumber_hexDigits (k n : Nat) :
    ∀ v, hexNumber v (hexDigits k n) = some (v * 16 ^ k + n % 16 ^ k) := by
  induction k with
  | zero => intro v; simp [hexDigits, hexNumber, Nat.mod_one]
  | succ k ih =>
    intro v
    rw [hexDigits_succ, hexNumber, hexValue_hexDigitChar, Option.some_bind, ih,
      Nat.mod_pow_succ, pow_succ]
    ring_nf

/-- The `k` hexadecimal digits `repr` writes for a character below `16 ^ k`, and the text after
them, are read back as that character. -/
theorem hexEscape_hexDigits (k : Nat) (c : Char) (hc : c.toNat < 16 ^ k) (rest : List Char) :
    hexEscape k (hexDigits k c.toNat ++ rest) = some ([c], k + 1) := by
  have hv : (Char.ofNat c.toNat).toNat.isValidChar := (Char.ofNat c.toNat).valid
  rw [Char.ofNat_toNat] at hv
  simp [hexEscape, List.take_append_of_le_length, hexNumber_hexDigits, Nat.mod_eq_of_lt hc, hv,
    Char.ofNat_toNat]

/-! ### One step of the literal -/

section Steps

variable {q : Char}

theorem literalBody_backslash (hbs : '\\' ≠ q) (xs : List Char) :
    literalBody q ('\\' :: xs) =
      (escape xs).bind fun r => (literalBody q (xs.drop r.2)).map (r.1 ++ ·) := by
  rw [literalBody, if_neg hbs, if_pos rfl]

theorem literalBody_plain {c : Char} (hcq : c ≠ q) (hbs : c ≠ '\\') (hnl : c ≠ '\n')
    (hcr : c ≠ '\r') (rest : List Char) :
    literalBody q (c :: rest) = (literalBody q rest).map (c :: ·) := by
  rw [literalBody, if_neg hcq, if_neg hbs, if_neg (by tauto)]

theorem literalBody_simpleEscape (hbs : '\\' ≠ q) {e c : Char} (he : simpleEscape e = some c)
    (rest : List Char) :
    literalBody q ('\\' :: e :: rest) = (literalBody q rest).map (c :: ·) := by
  have hnl : e ≠ '\n' := by rintro rfl; simp [simpleEscape] at he
  rw [literalBody_backslash hbs, escape, if_neg hnl, he]
  rfl

theorem literalBody_hexEscape (hbs : '\\' ≠ q) {e : Char} {k : Nat}
    (he : ∀ xs, escape (e :: xs) = hexEscape k xs) {c : Char} (hc : c.toNat < 16 ^ k)
    (rest : List Char) :
    literalBody q ('\\' :: e :: (hexDigits k c.toNat ++ rest)) =
      (literalBody q rest).map (c :: ·) := by
  rw [literalBody_backslash hbs, he, hexEscape_hexDigits k c hc, Option.some_bind,
    List.drop_succ_cons, List.drop_left' (length_hexDigits k _)]
  rfl

end Steps

/-! ### `repr` is read back -/

section Repr

variable (isPrintable : Char → Bool) (quote q : Char)

/-- What `reprChar` writes for `c`, and the text after it, is read as `c` and that text, inside
a literal quoted with `q` when `q` is a quote `repr` escapes or `c` is not `q`. -/
theorem literalBody_reprChar (hquote : quote = Char.ofNat 0x27 ∨ quote = Char.ofNat 0x22)
    (hq : q = Char.ofNat 0x27 ∨ q = Char.ofNat 0x22) (c : Char) (hc : c = q → c = quote)
    (rest : List Char) :
    literalBody q (reprChar isPrintable quote c ++ rest) = (literalBody q rest).map (c :: ·) := by
  have hbs : ('\\' : Char) ≠ q := by rcases hq with rfl | rfl <;> decide
  have hraw : c ≠ quote ∧ c ≠ '\\' → c ≠ '\n' → c ≠ '\r' →
      literalBody q (c :: rest) = (literalBody q rest).map (c :: ·) := fun h hn hr =>
    literalBody_plain (fun e => h.1 (hc e)) h.2 hn hr rest
  rw [reprChar]
  by_cases h₁ : c = quote ∨ c = '\\'
  · rw [if_pos h₁]
    refine literalBody_simpleEscape hbs ?_ rest
    rcases h₁ with rfl | rfl
    · rcases hquote with rfl | rfl <;> rfl
    · rfl
  rw [if_neg h₁]
  by_cases h₂ : c = '\t'
  · rw [if_pos h₂, h₂]; exact literalBody_simpleEscape hbs (by rfl) rest
  rw [if_neg h₂]
  by_cases h₃ : c = '\n'
  · rw [if_pos h₃, h₃]; exact literalBody_simpleEscape hbs (by rfl) rest
  rw [if_neg h₃]
  by_cases h₄ : c = '\r'
  · rw [if_pos h₄, h₄]; exact literalBody_simpleEscape hbs (by rfl) rest
  rw [if_neg h₄]
  by_cases h₅ : c.toNat < 0x20 ∨ c.toNat = 0x7F
  · rw [if_pos h₅]; exact literalBody_hexEscape hbs (fun _ => by rfl) (by omega) rest
  rw [if_neg h₅]
  by_cases h₆ : c.toNat < 0x7F
  · rw [if_pos h₆]; exact hraw (not_or.mp h₁) h₃ h₄
  rw [if_neg h₆]
  by_cases h₇ : isPrintable c
  · rw [if_pos h₇]; exact hraw (not_or.mp h₁) h₃ h₄
  rw [if_neg h₇]
  by_cases h₈ : c.toNat ≤ 0xFF
  · rw [if_pos h₈]; exact literalBody_hexEscape hbs (fun _ => by rfl) (by omega) rest
  rw [if_neg h₈]
  by_cases h₉ : c.toNat ≤ 0xFFFF
  · rw [if_pos h₉]; exact literalBody_hexEscape hbs (fun _ => by rfl) (by omega) rest
  rw [if_neg h₉]
  exact literalBody_hexEscape hbs (fun _ => by rfl) (by have := char_toNat_lt c; omega) rest

/-- A text `repr` wrote, and what follows it, is read as the string and what follows. -/
theorem literalBody_flatMap_reprChar (hquote : quote = Char.ofNat 0x27 ∨ quote = Char.ofNat 0x22)
    (hq : q = Char.ofNat 0x27 ∨ q = Char.ofNat 0x22) (rest : List Char) :
    ∀ s : List Char, (∀ c ∈ s, c = q → c = quote) →
      literalBody q (s.flatMap (reprChar isPrintable quote) ++ rest) =
        (literalBody q rest).map (s ++ ·)
  | [], _ => by simp
  | c :: s, hs => by
    rw [List.flatMap_cons, List.append_assoc,
      literalBody_reprChar isPrintable quote q hquote hq c (hs c (List.mem_cons_self c s)),
      literalBody_flatMap_reprChar hquote hq rest s fun c h => hs c (List.mem_cons_of_mem _ h),
      Option.map_map]
    rfl

/-- A quote `repr` leaves as it is ends a literal quoted with it before the end of the text. -/
theorem literalBody_flatMap_reprChar_of_mem
    (hquote : quote = Char.ofNat 0x27 ∨ quote = Char.ofNat 0x22)
    (hq : q = Char.ofNat 0x27 ∨ q = Char.ofNat 0x22)
    (hne : q ≠ quote) (rest : List Char) (hrest : rest ≠ []) :
    ∀ s : List Char, q ∈ s →
      literalBody q (s.flatMap (reprChar isPrintable quote) ++ rest) = none
  | c :: s, hs => by
    by_cases hc : c = q
    · subst hc
      have hraw : reprChar isPrintable quote c = [c] := by
        rcases hq with rfl | rfl <;> simp [reprChar, hne]
      rw [List.flatMap_cons, List.append_assoc, hraw, List.singleton_append, literalBody,
        if_pos rfl, if_neg (by simp [hrest])]
    · have ht : q ∈ s := (List.mem_cons.mp hs).resolve_left (Ne.symm hc)
      rw [List.flatMap_cons, List.append_assoc,
        literalBody_reprChar isPrintable quote q hquote hq c (absurd · hc),
        literalBody_flatMap_reprChar_of_mem hquote hq hne rest hrest s ht, Option.map_none']

theorem literalBody_quote : literalBody q [q] = some [] := by
  rw [literalBody, if_pos rfl, if_pos rfl]

/-- `repr(s)` is a literal whose value is `s`. -/
theorem literalValue_pyRepr (s : List Char) : literalValue (pyRepr isPrintable s) = some s := by
  simp only [pyRepr, List.cons_append]
  generalize hqd : (if Char.ofNat 0x27 ∈ s ∧ Char.ofNat 0x22 ∉ s then Char.ofNat 0x22
    else Char.ofNat 0x27) = quote
  have hquote : quote = Char.ofNat 0x27 ∨ quote = Char.ofNat 0x22 := by
    rw [← hqd]; split_ifs <;> simp
  rw [literalValue, if_pos hquote, literalBody_flatMap_reprChar isPrintable quote quote hquote
    hquote [quote] s fun _ _ h => h, literalBody_quote, Option.map_some', List.append_nil]

/-- `stringify(s)` is a literal whose value is `s` when `s` holds no double quote, and is no
literal at all when it does. -/
theorem literalValue_stringify (s : List Char) :
    literalValue (stringify isPrintable s) = if Char.ofNat 0x22 ∈ s then none else some s := by
  simp only [stringify, pyRepr, List.cons_append, List.drop_one, List.tail_cons,
    List.dropLast_concat]
  generalize hqd : (if Char.ofNat 0x27 ∈ s ∧ Char.ofNat 0x22 ∉ s then Char.ofNat 0x22
    else Char.ofNat 0x27) = quote
  have hdq : Char.ofNat 0x22 = Char.ofNat 0x27 ∨ Char.ofNat 0x22 = Char.ofNat 0x22 := Or.inr rfl
  rw [literalValue, if_pos hdq]
  split_ifs with h
  · have hquote : quote = Char.ofNat 0x27 := by rw [← hqd, if_neg fun h' => h'.2 h]
    subst hquote
    exact literalBody_flatMap_reprChar_of_mem isPrintable _ _ (Or.inl rfl) hdq (by decide) _
      (List.cons_ne_nil _ _) s h
  · have hquote : quote = Char.ofNat 0x27 ∨ quote = Char.ofNat 0x22 := by
      rw [← hqd]; split_ifs <;> simp
    rw [literalBody_flatMap_reprChar isPrintable quote _ hquote hdq _ s
      fun c hc hcq => absurd (hcq ▸ hc) h, literalBody_quote, Option.map_some', List.append_nil]

end Repr

end QilingOs
