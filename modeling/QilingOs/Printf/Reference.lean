import QilingOs.Printf

/-!
# What C's `printf` writes

The standard's `printf` (C11 7.21.6.1) on the format grammar of `FmtItem`, as the meaning the
emulated `printf` is measured against. Each argument is given as the word the call passes
(`va_list` reads one per argument), and a conversion reads the bits its length modifier names:
32 for an `int`, 16 for a `short`, `longBits` for a `long` (32 on Windows, 64 on 64-bit Unix)
and 64 for a `long long`; `%d` and `%i` read them as a two's-complement number.

An integer conversion writes its digits, at least as many as the precision asks (one by
default, none for a zero value with precision zero), behind a sign (`-`, or `+` or ` ` for a
signed conversion with that flag) and, with `#`, a `0x` or `0X` before a nonzero hexadecimal
value or a leading `0` for octal; the width pads it with spaces before, with zeros after the
sign and prefix under `0` (unless `-` or a precision is given), or with spaces after under `-`.
`%c` writes the argument's low byte, `%s` the bytes of the string the argument points to, up to
its NUL or at most the precision. A `*` width or precision is an `int` argument; a negative
width stands for `-` and its absolute value, a negative precision for none. `%p` is left to the
implementation, and so are the flag and modifier combinations the standard leaves undefined
(`#` on `d`, `i`, `u`, `c` or `s`; `0` or a modifier on `c` and `s`; a precision on `c`): for
those `cFormat` gives `none`, as it does when an argument is missing.
-/

namespace QilingOs

/-- `body` behind `lead` (a sign and a base prefix) padded to `width`: with `space`s before the
lead, with `zero`s between lead and body when `zeroPad`, or with `space`s after the body when
`left`. -/
def cPad {α : Type} (space zero : α) (left zeroPad : Bool) (width : Nat) (lead body : List α) :
    List α :=
  let n := width - (lead.length + body.length)
  if left then lead ++ body ++ List.replicate n space
  else if zeroPad then lead ++ List.replicate n zero ++ body
  else List.replicate n space ++ lead ++ body

/-- The bits of its argument a conversion with this length modifier reads, for a `long` of
`longBits` bits. -/
def LenMod.bits (longBits : Nat) : LenMod → Nat
  | .none => 32
  | .h => 16
  | .l => longBits
  | .ll => 64

/-- The low `bits` bits of `w` as a two's-complement number. -/
def toSigned (bits w : Nat) : Int :=
  if w % 2 ^ bits < 2 ^ (bits - 1) then (w % 2 ^ bits : Nat) else (w % 2 ^ bits : Nat) - (2 ^ bits : Nat)

/-- The digits of `n` in `base`, at least `prec` of them (one by default), and none for a zero
value with precision zero. -/
def cDigits (base : Nat) (prec : Option Nat) (n : Nat) : List Char :=
  if prec = some 0 ∧ n = 0 then []
  else List.replicate (prec.getD 1 - (Nat.toDigits base n).length) '0' ++ Nat.toDigits base n

/-- The base an integer conversion writes its digits in. -/
def Conv.base : Conv → Nat
  | .o => 8
  | .x | .X => 16
  | _ => 10

/-- What an integer conversion writes for the value `v`. -/
def cInteger (c : ConvSpec) (width : Nat) (left : Bool) (prec : Option Nat) (v : Int) :
    List UInt8 :=
  let hash := decide (Flag.hash ∈ c.flags)
  let base := c.conv.base
  let upper := decide (c.conv = .X)
  let digits := (cDigits base prec v.natAbs).map fun d => if upper then d.toUpper else d
  let body := if hash ∧ c.conv = .o ∧ digits.head? ≠ some '0' then '0' :: digits else digits
  let pre := if hash ∧ (c.conv = .x ∨ c.conv = .X) ∧ v ≠ 0 then ['0', if upper then 'X' else 'x']
    else []
  let signed := decide (c.conv = .d ∨ c.conv = .i)
  let sign := if v < 0 then ['-'] else if signed ∧ Flag.plus ∈ c.flags then ['+']
    else if signed ∧ Flag.space ∈ c.flags then [' '] else []
  encodeUtf8 (cPad ' ' '0' left (c.zeroFlag ∧ prec = none) width (sign ++ pre) body)

/-- The bytes at `a` before the first NUL, when a NUL comes within `fuel` bytes. -/
def cString (m : Mem) (a : Nat) : Nat → Option (List UInt8)
  | 0 => none
  | fuel + 1 => if m a = 0 then some [] else (cString m (a + 1) fuel).map (m a :: ·)

/-- The bytes at `a` before the first NUL, at most `n` of them. -/
def cStringUpTo (m : Mem) (a : Nat) : Nat → List UInt8
  | 0 => []
  | n + 1 => if m a = 0 then [] else m a :: cStringUpTo m (a + 1) n

/-- What the conversion `c` writes, with its width, left adjustment and precision known, for
the argument word `w`. -/
def cConvert (longBits : Nat) (m : Mem) (fuel : Nat) (c : ConvSpec) (width : Nat) (left : Bool)
    (prec : Option Nat) (w : Nat) : Option (List UInt8) :=
  let bits := c.length.bits longBits
  match c.conv with
  | .d | .i =>
    if Flag.hash ∈ c.flags then none else some (cInteger c width left prec (toSigned bits w))
  | .u | .o | .x | .X =>
    if Flag.hash ∈ c.flags ∧ c.conv = .u then none
    else some (cInteger c width left prec (w % 2 ^ bits : Nat))
  | .c =>
    if c.length ≠ .none ∨ Flag.hash ∈ c.flags ∨ c.zeroFlag ∨ prec.isSome then none
    else some (cPad 0x20 0x30 left false width [] [UInt8.ofNat w])
  | .s =>
    if c.length ≠ .none ∨ Flag.hash ∈ c.flags ∨ c.zeroFlag then none
    else ((match prec with
      | some p => some (cStringUpTo m w p)
      | none => cString m w fuel).map (cPad 0x20 0x30 left false width []))
  | .p => none

/-- A conversion's width and whether it adjusts left by a negative `*` width: the numeral, or
an `int` argument. -/
def cWidth (c : ConvSpec) (args : List Nat) : Option ((Nat × Bool) × List Nat) :=
  match c.width, args with
  | some .star, w :: rest => some (((toSigned 32 w).natAbs, decide (toSigned 32 w < 0)), rest)
  | some .star, [] => none
  | _, args => some ((numeralValue 0 c.widthDigits, false), args)

/-- A conversion's precision: the numeral, or an `int` argument, none when negative. -/
def cPrecision (c : ConvSpec) (args : List Nat) : Option (Option Nat × List Nat) :=
  match c.precision, args with
  | some .star, w :: rest =>
    some ((if toSigned 32 w < 0 then none else some (toSigned 32 w).toNat), rest)
  | some .star, [] => none
  | _, args => some (c.precValue, args)

/-- What the conversion `c` writes, taking its arguments from `args`, and the arguments left. -/
def cConv (longBits : Nat) (m : Mem) (fuel : Nat) (c : ConvSpec) (args : List Nat) :
    Option (List UInt8 × List Nat) :=
  (cWidth c args).bind fun rw => (cPrecision c rw.2).bind fun rp =>
    match rp.2 with
    | w :: rest =>
      (cConvert longBits m fuel c rw.1.1 (rw.1.2 || decide (Flag.minus ∈ c.flags)) rp.1 w).map
        (·, rest)
    | [] => none

/-- The bytes C's `printf` writes for the format `items` and the argument words `args`; extra
arguments are ignored. -/
def cFormat (longBits : Nat) (m : Mem) (fuel : Nat) :
    List FmtItem → List Nat → Option (List UInt8)
  | [], _ => some []
  | .lit c _ :: its, args => (cFormat longBits m fuel its args).map (String.utf8EncodeChar c ++ ·)
  | .escape :: its, args => (cFormat longBits m fuel its args).map (0x25 :: ·)
  | .conv c :: its, args =>
    (cConv longBits m fuel c args).bind fun r => (cFormat longBits m fuel its r.2).map (r.1 ++ ·)

end QilingOs
