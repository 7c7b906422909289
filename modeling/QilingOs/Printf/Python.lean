import QilingOs.Printf

/-!
# Python's `%` operator

`__common_printf` ends with `out % tuple(args)`: CPython's `PyUnicode_Format` on a `str` format
and a tuple of the arguments `__common_printf` built, ints (words of `va_list`) and strs (the
strings read in their place). `pyFormat` models it.

The format is read one character at a time by a machine whose phase says what the next
character is checked for (`PyPhase`). Outside a conversion characters are copied. A `%` starts a
conversion: `%%` gives `%`, `%(` asks for a mapping, which a tuple is not; otherwise come flags
from `-+ #0`, a width (digits, or `*` taking an int argument), a precision (`.` then digits or
`*`), at most one length letter from `hlL`, which is skipped, and the conversion character. The
conversion takes the next argument before its character is looked at, so a missing argument
is reported before an unsupported character. A format that ends inside a conversion is
incomplete, and arguments left over at the end are an error too.

`formatLong` is `_PyUnicode_FormatLong` for the nonnegative ints `va_list` gives, and
`argOutput` is `unicode_format_arg_output`, which pads a converted argument to its width; the
fast paths CPython takes when there is nothing to pad write the same text and are not modelled
apart. What the operator takes from the rest of CPython is a field of `PyRuntime`: the Unicode
database's `isprintable`, which `repr` uses for characters beyond ASCII, and the formatting of
floats.

The machine runs over a concatenation by running over each part in turn (`pyFormatRun_append`),
and over the text of a conversion of the C grammar without `*` it reads exactly the conversion
the C text spells (`pySteps_text_conv`).
-/

namespace QilingOs

/-! ### The operator -/

/-- What `%` uses from the rest of CPython: `Py_UNICODE_ISPRINTABLE`, and `formatfloat` on the
float of an int for the conversion `e`, `E`, `f`, `F`, `g` or `G` with its `#` flag and
precision. -/
structure PyRuntime where
  isPrintable : Char → Bool
  formatFloat : Char → Bool → Option Nat → Nat → Option (List Char)

/-- Why `%` raises. -/
inductive PyFormatError where
  /-- `TypeError: not enough arguments for format string` -/
  | notEnoughArguments
  /-- `TypeError: not all arguments converted during string formatting` -/
  | notAllConverted
  /-- `TypeError: format requires a mapping` -/
  | requiresMapping
  /-- `ValueError: incomplete format` -/
  | incompleteFormat
  /-- `ValueError: width too big` -/
  | widthTooBig
  /-- `ValueError: precision too big` -/
  | precisionTooBig
  /-- `TypeError: * wants int` -/
  | starWantsInt
  /-- `OverflowError`: a `*` value, a `%c` code point or a precision out of range -/
  | overflow
  /-- `ValueError: unsupported format character` -/
  | unsupported (c : Char)
  /-- `TypeError`: an argument of the wrong type for the conversion `c` -/
  | wrongType (c : Char)
  /-- a float conversion that `formatfloat` refuses -/
  | float
  /-- a `%c` of a surrogate code point: CPython builds the text, which no `str` of this model
  holds, and the `.encode` that `sprintf` and `printf` apply to it raises -/
  | surrogate
  deriving DecidableEq, Repr

/-- `PY_SSIZE_T_MAX` of a 64-bit CPython. -/
def pySsizeTMax : Nat := 2 ^ 63 - 1

/-- `INT_MAX`. -/
def intMax : Nat := 2 ^ 31 - 1

/-- The flags of a conversion: `F_LJUST`, `F_SIGN`, `F_BLANK`, `F_ALT` and `F_ZERO`. -/
structure PyFlags where
  ljust : Bool
  sign : Bool
  blank : Bool
  alt : Bool
  zero : Bool
  deriving DecidableEq, Repr

def PyFlags.empty : PyFlags := ⟨false, false, false, false, false⟩

/-- The flags with the one `c` stands for set, or `none` when `c` is no flag. -/
def PyFlags.set (f : PyFlags) (c : Char) : Option PyFlags :=
  if c = '-' then some { f with ljust := true }
  else if c = '+' then some { f with sign := true }
  else if c = ' ' then some { f with blank := true }
  else if c = '#' then some { f with alt := true }
  else if c = '0' then some { f with zero := true }
  else none

/-- What has been read of a conversion: its flags, and its width and precision when given. -/
structure PyArgSpec where
  flags : PyFlags
  width : Option Nat
  prec : Option Nat
  deriving DecidableEq, Repr

/-- What the next character of the format is checked for. -/
inductive PyPhase where
  /-- text to copy, or `%` -/
  | text
  /-- the character after `%` -/
  | percent
  /-- more flags -/
  | flags (a : PyArgSpec)
  /-- more digits of the width -/
  | widthDigits (a : PyArgSpec)
  /-- a `.` after a `*` width -/
  | dot (a : PyArgSpec)
  /-- the character after `.` -/
  | precStart (a : PyArgSpec)
  /-- more digits of the precision -/
  | precDigits (a : PyArgSpec)
  /-- a length letter after a `*` precision -/
  | length (a : PyArgSpec)
  /-- the conversion character, after a length letter -/
  | conv (a : PyArgSpec)
  deriving DecidableEq, Repr

/-- `upper` for the letters `a` to `x`, which is how `%X` upper-cases its text. -/
def upperAtoX (c : Char) : Char :=
  if 'a' ≤ c ∧ c ≤ 'x' then Char.ofNat (c.toNat - 32) else c

/-- `Py_hexdigits[n & 0xF]`. -/
def hexDigitChar (n : Nat) : Char := Nat.digitChar (n % 16)

/-- The `k` lowest hexadecimal digits of `n`, the most significant first. -/
def hexDigits (k n : Nat) : List Char :=
  (List.range k).reverse.map fun i => hexDigitChar (n / 16 ^ i)

/-- What `repr` writes for the character `ch` inside quotes `quote`. -/
def reprChar (isPrintable : Char → Bool) (quote ch : Char) : List Char :=
  if ch = quote ∨ ch = '\\' then ['\\', ch]
  else if ch = '\t' then ['\\', 't']
  else if ch = '\n' then ['\\', 'n']
  else if ch = '\r' then ['\\', 'r']
  else if ch.toNat < 0x20 ∨ ch.toNat = 0x7F then '\\' :: 'x' :: hexDigits 2 ch.toNat
  else if ch.toNat < 0x7F then [ch]
  else if isPrintable ch then [ch]
  else if ch.toNat ≤ 0xFF then '\\' :: 'x' :: hexDigits 2 ch.toNat
  else if ch.toNat ≤ 0xFFFF then '\\' :: 'u' :: hexDigits 4 ch.toNat
  else '\\' :: 'U' :: hexDigits 8 ch.toNat

/-- `unicode_repr`: the text between quotes, double ones when it holds a single quote and no
double quote, with quotes of that kind, backslashes and the characters that are not printable
escaped. With `isPrintable` false beyond ASCII it is `ascii()`. -/
def pyRepr (isPrintable : Char → Bool) (s : List Char) : List Char :=
  let quote := if Char.ofNat 0x27 ∈ s ∧ Char.ofNat 0x22 ∉ s then Char.ofNat 0x22 else Char.ofNat 0x27
  quote :: s.flatMap (reprChar isPrintable quote) ++ [quote]

/-- `_PyUnicode_FormatLong(val, alt, prec, type)` for a nonnegative int: the digits of `n` in the
base of `type`, behind `0o`, `0x` when `alt` is set, zero-filled to `prec` digits, and for `X`
with every letter up to `x` in upper case. -/
def formatLong (alt : Bool) (prec : Option Nat) (type : Char) (n : Nat) : List Char :=
  let base := if type = 'o' then 8 else if type = 'x' ∨ type = 'X' then 16 else 10
  let digits := Nat.toDigits base n
  let pre := if alt ∧ (type = 'o' ∨ type = 'x' ∨ type = 'X') then
    ['0', if type = 'o' then 'o' else 'x'] else []
  let buf := pre ++ List.replicate (prec.getD 0 - digits.length) '0' ++ digits
  if type = 'X' then buf.map upperAtoX else buf

/-- `unicode_format_arg_output(ctx, arg, str)`: the converted text `str` of the conversion `ch`,
cut to the precision for `s`, `r` and `a`, with the sign of a number (`sign`) taken off its
text or made from `+` and ` `, and padded to the width: with spaces before the sign and the
`#` prefix, or with `0`s after them for a number with `0`, or with spaces after the text
with `-`. -/
def argOutput (a : PyArgSpec) (ch : Char) (sign : Bool) (str : List Char) : List Char :=
  let fill := if sign && a.flags.zero then '0' else ' '
  let len₀ := if ch = 's' ∨ ch = 'r' ∨ ch = 'a' then min (a.prec.getD str.length) str.length
    else str.length
  let signchar : Option Char :=
    if sign then
      if str.head? = some '-' ∨ str.head? = some '+' then str.head?
      else if a.flags.sign then some '+' else if a.flags.blank then some ' ' else none
    else none
  let taken := if sign ∧ (str.head? = some '-' ∨ str.head? = some '+') then 1 else 0
  let len₁ := len₀ - taken
  let width₁ := max (a.width.getD 0) len₁
  let width₂ := if signchar.isSome ∧ len₁ < width₁ then width₁ - 1 else width₁
  let prefixed := a.flags.alt ∧ (ch = 'x' ∨ ch = 'X' ∨ ch = 'o')
  let width₃ := if prefixed then width₂ - 2 else width₂
  let len₃ := if prefixed then len₁ - 2 else len₁
  let leftPad := if len₃ < width₃ ∧ !a.flags.ljust then width₃ - len₃ else 0
  let width₄ := width₃ - leftPad
  let lead := signchar.toList ++ (if prefixed then ['0', ch] else [])
  (if fill ≠ ' ' then lead else []) ++ List.replicate leftPad fill ++
    (if fill = ' ' then lead else []) ++
    ((str.drop (taken + if prefixed then 2 else 0)).take len₃) ++
    List.replicate (width₄ - len₃) ' '

/-- `unicode_format_arg_format` and its output: the text of the argument `v` under the
conversion `ch`. -/
def formatArg (rt : PyRuntime) (a : PyArgSpec) (ch : Char) (v : PyArg) :
    Except PyFormatError (List Char) :=
  if ch = 's' ∨ ch = 'r' ∨ ch = 'a' then
    .ok (argOutput a ch false (match v with
      | .int n => Nat.toDigits 10 n
      | .str s => if ch = 's' then s else pyRepr (if ch = 'r' then rt.isPrintable else fun _ => false) s))
  else if ch = 'i' ∨ ch = 'd' ∨ ch = 'u' ∨ ch = 'o' ∨ ch = 'x' ∨ ch = 'X' then
    match v with
    | .str _ => .error (.wrongType ch)
    | .int n =>
      if intMax - 3 < a.prec.getD 0 then .error .overflow
      else .ok (argOutput a ch true (formatLong a.flags.alt a.prec ch n))
  else if ch = 'e' ∨ ch = 'E' ∨ ch = 'f' ∨ ch = 'F' ∨ ch = 'g' ∨ ch = 'G' then
    match v with
    | .str _ => .error (.wrongType ch)
    | .int n => match rt.formatFloat ch a.flags.alt a.prec n with
      | some str => .ok (argOutput a ch true str)
      | none => .error .float
  else if ch = 'c' then
    match v with
    | .str [c] => .ok (argOutput a ch false [c])
    | .str _ => .error (.wrongType ch)
    | .int n =>
      if 0x10FFFF < n then .error .overflow
      else if 0xD800 ≤ n ∧ n ≤ 0xDFFF then .error .surrogate
      else .ok (argOutput a ch false [Char.ofNat n])
  else .error (.unsupported ch)

/-- `unicode_format_getnextarg`. -/
def nextArg : List PyArg → Except PyFormatError (PyArg × List PyArg)
  | [] => .error .notEnoughArguments
  | v :: vs => .ok (v, vs)

/-- The conversion character `c`: the next argument, converted. -/
def convert (rt : PyRuntime) (a : PyArgSpec) (c : Char) (args : List PyArg) :
    Except PyFormatError (PyPhase × List PyArg × List Char) :=
  (nextArg args).bind fun r => (formatArg rt a c r.1).map fun out => (.text, r.2, out)

/-- A character where a length letter may stand: `h`, `l` or `L` is skipped once. -/
def checkLength (rt : PyRuntime) (a : PyArgSpec) (c : Char) (args : List PyArg) :
    Except PyFormatError (PyPhase × List PyArg × List Char) :=
  if c = 'h' ∨ c = 'l' ∨ c = 'L' then .ok (.conv a, args, []) else convert rt a c args

/-- A character where a precision may start. -/
def checkDot (rt : PyRuntime) (a : PyArgSpec) (c : Char) (args : List PyArg) :
    Except PyFormatError (PyPhase × List PyArg × List Char) :=
  if c = '.' then .ok (.precStart { a with prec := some 0 }, args, []) else checkLength rt a c args

/-- A `*` width: the next argument, an int that fits a `Py_ssize_t`. -/
def starWidth (args : List PyArg) : Except PyFormatError (Nat × List PyArg) :=
  (nextArg args).bind fun
    | (.int n, vs) => if n ≤ pySsizeTMax then .ok (n, vs) else .error .overflow
    | (.str _, _) => .error .starWantsInt

/-- A `*` precision: the next argument, an int that fits an `int`. -/
def starPrec (args : List PyArg) : Except PyFormatError (Nat × List PyArg) :=
  (nextArg args).bind fun
    | (.int n, vs) => if n ≤ intMax then .ok (n, vs) else .error .overflow
    | (.str _, _) => .error .starWantsInt

/-- A character where a width may start. -/
def startWidth (rt : PyRuntime) (a : PyArgSpec) (c : Char) (args : List PyArg) :
    Except PyFormatError (PyPhase × List PyArg × List Char) :=
  if c = '*' then (starWidth args).map fun r => (.dot { a with width := some r.1 }, r.2, [])
  else if c.isDigit then .ok (.widthDigits { a with width := some (digitValue c) }, args, [])
  else checkDot rt a c args

/-- A character where a flag may stand. -/
def checkFlag (rt : PyRuntime) (a : PyArgSpec) (c : Char) (args : List PyArg) :
    Except PyFormatError (PyPhase × List PyArg × List Char) :=
  match a.flags.set c with
  | some f => .ok (.flags { a with flags := f }, args, [])
  | none => startWidth rt a c args

/-- `n * 10 + d` for one more digit `c` of a width or precision, or `none` when that passes
`bound`. -/
def pushDigit (bound n : Nat) (c : Char) : Option Nat :=
  if (bound - digitValue c) / 10 < n then none else some (n * 10 + digitValue c)

/-- One character of the format in the phase `ph`: the next phase, the arguments left and the
text written. -/
def pyStep (rt : PyRuntime) : PyPhase → Char → List PyArg →
    Except PyFormatError (PyPhase × List PyArg × List Char)
  | .text, c, args => if c = '%' then .ok (.percent, args, []) else .ok (.text, args, [c])
  | .percent, c, args =>
    if c = '%' then .ok (.text, args, ['%'])
    else if c = '(' then .error .requiresMapping
    else checkFlag rt ⟨.empty, none, none⟩ c args
  | .flags a, c, args => checkFlag rt a c args
  | .widthDigits a, c, args =>
    if c.isDigit then
      match pushDigit pySsizeTMax (a.width.getD 0) c with
      | some w => .ok (.widthDigits { a with width := some w }, args, [])
      | none => .error .widthTooBig
    else checkDot rt a c args
  | .dot a, c, args => checkDot rt a c args
  | .precStart a, c, args =>
    if c = '*' then (starPrec args).map fun r => (.length { a with prec := some r.1 }, r.2, [])
    else if c.isDigit then .ok (.precDigits { a with prec := some (digitValue c) }, args, [])
    else checkLength rt a c args
  | .precDigits a, c, args =>
    if c.isDigit then
      match pushDigit intMax (a.prec.getD 0) c with
      | some p => .ok (.precDigits { a with prec := some p }, args, [])
      | none => .error .precisionTooBig
    else checkLength rt a c args
  | .length a, c, args => checkLength rt a c args
  | .conv a, c, args => convert rt a c args

/-- The machine from the phase `ph` over the rest of the format: at its end, an error if a
conversion is unfinished or an argument is left. -/
def pyFormatRun (rt : PyRuntime) : PyPhase → List Char → List PyArg →
    Except PyFormatError (List Char)
  | .text, [], [] => .ok []
  | .text, [], _ :: _ => .error .notAllConverted
  | _, [], _ => .error .incompleteFormat
  | ph, c :: cs, args =>
    (pyStep rt ph c args).bind fun r => (pyFormatRun rt r.1 cs r.2.1).map (r.2.2 ++ ·)

/-- `PyUnicode_Format(format, args)` for a tuple `args`: `format % tuple(args)`. -/
def pyFormat (rt : PyRuntime) (format : List Char) (args : List PyArg) :
    Except PyFormatError (List Char) :=
  pyFormatRun rt .text format args

/-! ### The reading of a C conversion -/

/-- The flags read from the characters `cs` on top of `f`. -/
def PyFlags.add (f : PyFlags) (cs : List Char) : PyFlags :=
  ⟨f.ljust || decide ('-' ∈ cs), f.sign || decide ('+' ∈ cs), f.blank || decide (' ' ∈ cs),
    f.alt || decide ('#' ∈ cs), f.zero || decide ('0' ∈ cs)⟩

/-- The width the machine reads from a C width: none when its digits are all zeros, which are
then only flags. -/
def ConvSpec.pyWidth (c : ConvSpec) : Option Nat :=
  if c.widthDigits.dropWhile (· == '0') = [] then none else some (numeralValue 0 c.widthDigits)

/-- The flags the machine reads from a conversion: its flag characters, and the leading zeros of
its width. -/
def ConvSpec.pyFlags (c : ConvSpec) : PyFlags :=
  PyFlags.empty.add (c.flags.map Flag.char ++ c.widthDigits.takeWhile (· == '0'))

/-- What the machine reads from the text of a conversion without `*`: its flags, with the
leading zeros of the width among them, its width and its precision, or the error a width or a
precision too big raises. -/
def ConvSpec.pyParse (c : ConvSpec) : Except PyFormatError PyArgSpec :=
  if pySsizeTMax < numeralValue 0 c.widthDigits then .error .widthTooBig
  else if intMax < c.precValue.getD 0 then .error .precisionTooBig
  else .ok ⟨c.pyFlags, c.pyWidth, c.precValue⟩

/-- The character the machine converts with: the second `l` of `ll`, or the conversion
character. -/
def ConvSpec.pyChar (c : ConvSpec) : Char :=
  if c.length = .ll then 'l' else c.conv.char

/-- The machine over a piece of the format: the phase, arguments and text after it. -/
def pySteps (rt : PyRuntime) : PyPhase → List Char → List PyArg →
    Except PyFormatError (PyPhase × List PyArg × List Char)
  | ph, [], args => .ok (ph, args, [])
  | ph, c :: cs, args => (pyStep rt ph c args).bind fun r =>
    (pySteps rt r.1 cs r.2.1).map fun r' => (r'.1, r'.2.1, r.2.2 ++ r'.2.2)

/-! ### Running over parts of the format -/

section Run

variable (rt : PyRuntime)

theorem pyFormatRun_append (xs ys : List Char) :
    ∀ (ph : PyPhase) (args : List PyArg), pyFormatRun rt ph (xs ++ ys) args =
      (pySteps rt ph xs args).bind fun r => (pyFormatRun rt r.1 ys r.2.1).map (r.2.2 ++ ·)
  := by
  induction xs with
  | nil =>
    intro ph args
    simp only [List.nil_append, pySteps, Except.bind]
    cases pyFormatRun rt ph ys args <;> rfl
  | cons c cs ih =>
    intro ph args
    simp only [List.cons_append, pyFormatRun, pySteps]
    cases pyStep rt ph c args with
    | error e => rfl
    | ok r =>
      simp only [Except.bind, ih]
      cases pySteps rt r.1 cs r.2.1 with
      | error e => rfl
      | ok r' =>
        simp only [Except.map]
        cases pyFormatRun rt r'.1 ys r'.2.1 <;> simp

theorem pySteps_append (xs ys : List Char) :
    ∀ (ph : PyPhase) (args : List PyArg), pySteps rt ph (xs ++ ys) args =
      (pySteps rt ph xs args).bind fun r =>
        (pySteps rt r.1 ys r.2.1).map fun r' => (r'.1, r'.2.1, r.2.2 ++ r'.2.2)
  := by
  induction xs with
  | nil =>
    intro ph args
    simp only [List.nil_append, pySteps, Except.bind]
    cases pySteps rt ph ys args <;> rfl
  | cons c cs ih =>
    intro ph args
    rw [List.cons_append, pySteps, pySteps]
    cases pyStep rt ph c args with
    | error e => rfl
    | ok r =>
      simp only [Except.bind, ih r.1 r.2.1]
      cases pySteps rt r.1 cs r.2.1 with
      | error e => rfl
      | ok r' =>
        simp only [Except.map]
        cases pySteps rt r'.1 ys r'.2.1 <;> simp

/-- One step, then the rest. -/
theorem pySteps_cons_of_step {ph ph' : PyPhase} {c : Char} {args args' : List PyArg}
    {out : List Char} (h : pyStep rt ph c args = .ok (ph', args', out)) (cs : List Char) :
  pySteps rt ph (c :: cs) args = (pySteps rt ph' cs args').map fun r => (r.1, r.2.1, out ++ r.2.2)
  := by
  simp only [pySteps, h, Except.bind]

/-- A last step. -/
theorem pySteps_singleton (ph : PyPhase) (c : Char) (args : List PyArg) :
  pySteps rt ph [c] args = pyStep rt ph c args
  := by
  simp only [pySteps, Except.bind, Except.map]
  cases pyStep rt ph c args <;> simp

/-- Text without `%` is copied. -/
theorem pySteps_text (args : List PyArg) :
    ∀ cs : List Char, '%' ∉ cs → pySteps rt .text cs args = .ok (.text, args, cs)
  | [], _ => rfl
  | c :: cs, h => by
    have hc : c ≠ '%' := fun e => h (e ▸ List.mem_cons_self _ _)
    rw [@pySteps_cons_of_step rt .text .text c args args [c] (by simp only [pyStep, if_neg hc]) cs,
      pySteps_text args cs fun h' => h (List.mem_cons_of_mem _ h')]
    rfl

end Run

/-! ### Reading a conversion -/

theorem Char.isDigit_iff {c : Char} : c.isDigit ↔ 48 ≤ c.toNat ∧ c.toNat ≤ 57 := by
  simp only [Char.isDigit, Bool.and_eq_true, decide_eq_true_eq, UInt32.le_def, BitVec.le_def,
    ge_iff_le]
  rfl

theorem digitValue_le {d : Char} (h : d.isDigit) : digitValue d ≤ 9 := by
  have := Char.isDigit_iff.mp h
  show d.toNat - 48 ≤ 9
  omega

/-- One more digit of a width or precision stays within `bound` exactly when the value it makes
does. -/
theorem pushDigit_eq {bound : Nat} (n : Nat) {d : Char} (hd : digitValue d ≤ bound) :
  pushDigit bound n d = if n * 10 + digitValue d ≤ bound then some (n * 10 + digitValue d) else none
  := by
  unfold pushDigit
  by_cases h : n * 10 + digitValue d ≤ bound
  · rw [if_neg (by omega), if_pos h]
  · rw [if_pos (by omega), if_neg h]

theorem numeralValue_cons (n : Nat) (d : Char) (ds : List Char) :
  numeralValue n (d :: ds) = numeralValue (n * 10 + digitValue d) ds
  := rfl

theorem le_numeralValue : ∀ (n : Nat) (ds : List Char), n ≤ numeralValue n ds
  | _, [] => le_refl _
  | n, d :: ds => le_trans (by omega) (le_numeralValue (n * 10 + digitValue d) ds)

theorem numeralValue_append (n : Nat) (xs ys : List Char) :
  numeralValue n (xs ++ ys) = numeralValue (numeralValue n xs) ys
  := List.foldl_append _ _ _ _

theorem numeralValue_of_zeros : ∀ ds : List Char, (∀ d ∈ ds, d = '0') → numeralValue 0 ds = 0
  | [], _ => rfl
  | d :: ds, h => by
    rw [numeralValue_cons, h d (List.mem_cons_self _ _)]
    exact numeralValue_of_zeros ds fun d' h' => h d' (List.mem_cons_of_mem _ h')

theorem PyFlags.add_nil (f : PyFlags) : f.add [] = f := by
  cases f
  simp [PyFlags.add]

theorem PyFlags.add_add (f : PyFlags) (xs ys : List Char) : (f.add xs).add ys = f.add (xs ++ ys) := by
  simp [PyFlags.add, Bool.or_assoc]

theorem PyFlags.set_of_flag {c : Char} (h : c = '-' ∨ c = '+' ∨ c = ' ' ∨ c = '#' ∨ c = '0')
    (f : PyFlags) : f.set c = some (f.add [c]) := by
  rcases h with rfl | rfl | rfl | rfl | rfl <;> simp [PyFlags.set, PyFlags.add]

theorem PyFlags.set_of_digit {c : Char} (h : c.isDigit) (h0 : c ≠ '0') (f : PyFlags) :
  f.set c = none
  := by
  have := Char.isDigit_iff.mp h
  unfold PyFlags.set
  repeat rw [if_neg (fun e => by subst e; simp_all)]

section Conversion

variable (rt : PyRuntime)

/-- In the flags, flag characters only set flags. -/
theorem pySteps_flags (args : List PyArg) :
    ∀ (cs : List Char) (a : PyArgSpec),
      (∀ c ∈ cs, c = '-' ∨ c = '+' ∨ c = ' ' ∨ c = '#' ∨ c = '0') →
      pySteps rt (.flags a) cs args = .ok (.flags { a with flags := a.flags.add cs }, args, [])
  | [], a, _ => by simp [pySteps, PyFlags.add_nil]
  | c :: cs, a, h => by
    have hstep : pyStep rt (.flags a) c args =
        .ok (.flags { a with flags := a.flags.add [c] }, args, []) := by
      simp only [pyStep, checkFlag, PyFlags.set_of_flag (h c (List.mem_cons_self _ _))]
    have := pySteps_flags args cs { a with flags := a.flags.add [c] }
      fun c' h' => h c' (List.mem_cons_of_mem _ h')
    rw [pySteps_cons_of_step rt hstep, this]
    simp [Except.map, PyFlags.add_add]

/-- Digits after the first of a width or precision: `mk n` is the phase with the value `n` read,
whose step on a digit pushes it within `bound` or raises `err`. -/
theorem pySteps_digits (bound : Nat) (mk : Nat → PyPhase) (err : PyFormatError)
    (hstep : ∀ n d args, d.isDigit → pyStep rt (mk n) d args =
      match pushDigit bound n d with
      | some n' => .ok (mk n', args, [])
      | none => .error err)
    (hbound : 9 ≤ bound) (args : List PyArg) :
    ∀ (ds : List Char) (n : Nat), (∀ d ∈ ds, d.isDigit) → n ≤ bound →
      pySteps rt (mk n) ds args =
        if numeralValue n ds ≤ bound then .ok (mk (numeralValue n ds), args, []) else .error err
  | [], n, _, hn => by simp [pySteps, numeralValue, hn]
  | d :: ds, n, h, hn => by
    have hd := h d (List.mem_cons_self _ _)
    rw [numeralValue_cons]
    by_cases hle : n * 10 + digitValue d ≤ bound
    · have hs : pyStep rt (mk n) d args = .ok (mk (n * 10 + digitValue d), args, []) := by
        rw [hstep n d args hd, pushDigit_eq n (le_trans (digitValue_le hd) hbound), if_pos hle]
      rw [pySteps_cons_of_step rt hs, pySteps_digits bound mk err hstep hbound args ds _
        (fun d' h' => h d' (List.mem_cons_of_mem _ h')) hle]
      split <;> rfl
    · have hs : pyStep rt (mk n) d args = .error err := by
        rw [hstep n d args hd, pushDigit_eq n (le_trans (digitValue_le hd) hbound), if_neg hle]
      have hgt : ¬numeralValue (n * 10 + digitValue d) ds ≤ bound :=
        fun h' => hle (le_trans (le_numeralValue _ _) h')
      simp only [pySteps, hs, if_neg hgt]
      rfl

/-- The text written around a step that writes nothing, once it is at the front. -/
theorem map_nil_append_out (x : Except PyFormatError (PyPhase × List PyArg × List Char)) :
  x.map (fun r => (r.1, r.2.1, [] ++ r.2.2)) = x
  := by
  cases x <;> rfl

theorem formatArg_l (a : PyArgSpec) (v : PyArg) : formatArg rt a 'l' v = .error (.unsupported 'l') := by
  simp [formatArg]

/-- `convert` with the `l` that follows another `l` raises. -/
theorem convert_l_error (a : PyArgSpec) (args : List PyArg) :
  ∃ e, convert rt a 'l' args = .error e
  := by
  cases args with
  | nil => exact ⟨_, rfl⟩
  | cons v vs => exact ⟨.unsupported 'l', by simp [convert, nextArg, Except.bind, formatArg_l, Except.map]⟩

theorem Conv.char_not_length (v : Conv) : ¬(v.char = 'h' ∨ v.char = 'l' ∨ v.char = 'L') := by
  cases v <;> decide

theorem Conv.char_ne_dot (v : Conv) : v.char ≠ '.' := by
  cases v <;> decide

theorem Conv.char_not_digit (v : Conv) : v.char.isDigit = false := by
  cases v <;> decide

theorem Conv.char_ne_star (v : Conv) : v.char ≠ '*' := by
  cases v <;> decide

theorem Conv.set_char (v : Conv) (f : PyFlags) : f.set v.char = none := by
  cases v <;> rfl

/-- The length letters and the conversion character, from a phase that hands them to
`checkLength`: one `h` or `l` is skipped, and the second `l` of `ll` is converted. -/
theorem pySteps_tail (c : ConvSpec) (P : PyPhase) (a : PyArgSpec)
    (hP : ∀ ch args, (ch = 'h' ∨ ch = 'l' ∨ ch = c.conv.char) →
      pyStep rt P ch args = checkLength rt a ch args)
    (args : List PyArg) :
  pySteps rt P (c.length.chars ++ [c.conv.char]) args = convert rt a c.pyChar args
  := by
  have hconv : ∀ args, checkLength rt a c.conv.char args = convert rt a c.conv.char args :=
    fun args => by simp only [checkLength, if_neg (Conv.char_not_length c.conv)]
  have hlen : ∀ ch, ch = 'h' ∨ ch = 'l' → pyStep rt P ch args = .ok (.conv a, args, []) :=
    fun ch hch => by
      rw [hP ch args (hch.elim .inl (.inr ∘ .inl))]
      rcases hch with rfl | rfl <;> rfl
  unfold ConvSpec.pyChar
  cases hl : c.length with
  | none =>
    simp only [LenMod.chars, List.nil_append, pySteps_singleton, hP _ _ (.inr (.inr rfl)), hconv]
    rfl
  | h =>
    simp only [LenMod.chars, List.singleton_append, pySteps_cons_of_step rt (hlen 'h' (.inl rfl)),
      pySteps_singleton, map_nil_append_out]
    rfl
  | l =>
    simp only [LenMod.chars, List.singleton_append, pySteps_cons_of_step rt (hlen 'l' (.inr rfl)),
      pySteps_singleton, map_nil_append_out]
    rfl
  | ll =>
    obtain ⟨e, he⟩ := convert_l_error rt a args
    simp only [LenMod.chars, List.cons_append, List.nil_append,
      pySteps_cons_of_step rt (hlen 'l' (.inr rfl)), map_nil_append_out, if_true]
    simp only [pySteps, pyStep, he]
    rfl

/-- The precision and what follows it, from a phase that hands `.`, a length letter and the
conversion character to `checkDot`. -/
theorem pySteps_prec (c : ConvSpec) (hp : c.precision ≠ some .star) (P : PyPhase)
    (a : PyArgSpec) (ha : a.prec = none)
    (hP : ∀ ch args, (ch = '.' ∨ ch = 'h' ∨ ch = 'l' ∨ ch = c.conv.char) →
      pyStep rt P ch args = checkDot rt a ch args)
    (args : List PyArg) :
  pySteps rt P ((c.precision.map fun p => '.' :: p.chars).getD [] ++ c.length.chars ++
      [c.conv.char]) args =
    if intMax < c.precValue.getD 0 then .error .precisionTooBig
    else convert rt { a with prec := c.precValue } c.pyChar args
  := by
  unfold ConvSpec.precValue
  rcases hpc : c.precision with _ | ⟨_ | ⟨d, ds⟩, hds⟩ | _
  · have hnone : { a with prec := none } = a := by cases a; simp_all
    simp only [Option.map_none', Option.getD_none, List.nil_append, if_neg (Nat.not_lt_zero _),
      hnone]
    refine pySteps_tail rt c P a (fun ch args hch => ?_) args
    rw [hP ch args (.inr hch), checkDot, if_neg]
    rcases hch with rfl | rfl | h
    · decide
    · decide
    · exact h ▸ Conv.char_ne_dot c.conv
  · exact absurd rfl hds.1
  · have hd : d.isDigit := hds.2 d (List.mem_cons_self _ _)
    have hdot : pyStep rt P '.' args = .ok (.precStart { a with prec := some 0 }, args, []) := by
      rw [hP '.' args (.inl rfl)]
      rfl
    have hfirst : pyStep rt (.precStart { a with prec := some 0 }) d args =
        .ok (.precDigits { a with prec := some (digitValue d) }, args, []) := by
      have hstar : d ≠ '*' := fun e => by subst e; exact absurd hd (by decide)
      simp only [pyStep, if_neg hstar, hd, if_true]
    have hrest := pySteps_digits rt intMax (fun p => .precDigits { a with prec := some p })
      .precisionTooBig (fun n d' args hd' => by simp only [pyStep, hd', if_true]; rfl)
      (by decide) args ds (digitValue d) (fun d' h' => hds.2 d' (List.mem_cons_of_mem _ h'))
      (le_trans (digitValue_le hd) (by decide))
    have htext : (Option.map (fun p => '.' :: p.chars) (some (Count.num (d :: ds) hds))).getD [] ++
        c.length.chars ++ [c.conv.char] = '.' :: d :: (ds ++ (c.length.chars ++ [c.conv.char])) := by
      simp [Count.chars]
    rw [htext, pySteps_cons_of_step rt hdot, pySteps_cons_of_step rt hfirst, pySteps_append, hrest]
    simp only [Option.getD_some, numeralValue_cons, Nat.zero_mul, Nat.zero_add]
    by_cases hgt : numeralValue (digitValue d) ds ≤ intMax
    · have htail := pySteps_tail rt c (.precDigits { a with prec := some (numeralValue (digitValue d) ds) })
        { a with prec := some (numeralValue (digitValue d) ds) }
        (fun ch args hch => by
          have : ch.isDigit = false := by
            rcases hch with rfl | rfl | rfl
            · decide
            · decide
            · exact Conv.char_not_digit c.conv
          simp only [pyStep, this]
          rfl) args
      simp only [if_pos hgt, if_neg (Nat.not_lt.mpr hgt), Except.bind, htail, map_nil_append_out]
    · simp only [if_neg hgt, if_pos (Nat.lt_of_not_le hgt)]
      rfl
  · exact absurd hpc hp

theorem ConvSpec.widthDigits_isDigit (c : ConvSpec) : ∀ d ∈ c.widthDigits, d.isDigit := by
  unfold ConvSpec.widthDigits
  rcases c.width with _ | ⟨ds, h⟩ | _
  · simp
  · exact h.2
  · simp

theorem ConvSpec.width_chars (c : ConvSpec) (hw : c.width ≠ some .star) :
  (c.width.map Count.chars).getD [] = c.widthDigits
  := by
  unfold ConvSpec.widthDigits
  rcases hwc : c.width with _ | ⟨ds, h⟩ | _
  · rfl
  · rfl
  · exact absurd hwc hw

/-- The width and what follows it, in the flags: its leading zeros are flags, its other digits
the width. -/
theorem pySteps_width (c : ConvSpec) (hp : c.precision ≠ some .star) (a : PyArgSpec) (ha : a.width = none ∧ a.prec = none)
    (args : List PyArg) :
  pySteps rt (.flags a) (c.widthDigits ++ ((c.precision.map fun p => '.' :: p.chars).getD [] ++
      c.length.chars ++ [c.conv.char])) args =
    if pySsizeTMax < numeralValue 0 c.widthDigits then .error .widthTooBig
    else if intMax < c.precValue.getD 0 then .error .precisionTooBig
    else convert rt ⟨a.flags.add (c.widthDigits.takeWhile (· == '0')), c.pyWidth, c.precValue⟩
      c.pyChar args
  := by
  generalize hzs : c.widthDigits.takeWhile (· == '0') = zs
  have hzeros : ∀ d ∈ zs, d = '0' := fun d h => by
    rw [← hzs] at h
    simpa using List.mem_takeWhile_imp h
  have hsplit : c.widthDigits = zs ++ c.widthDigits.dropWhile (· == '0') := by
    rw [← hzs, List.takeWhile_append_dropWhile]
  have hval : numeralValue 0 c.widthDigits = numeralValue 0 (c.widthDigits.dropWhile (· == '0')) := by
    conv_lhs => rw [hsplit]
    rw [numeralValue_append, numeralValue_of_zeros _ hzeros]
  have hdigits : ∀ d ∈ c.widthDigits.dropWhile (· == '0'), d.isDigit := fun d h =>
    c.widthDigits_isDigit d (List.dropWhile_subset _ h)
  -- after the width, the phase hands `.`, a length letter or the conversion to `checkDot`
  have hprec : ∀ (P : PyPhase) (a' : PyArgSpec), a'.prec = none →
      (∀ ch args, (ch = '.' ∨ ch = 'h' ∨ ch = 'l' ∨ ch = c.conv.char) →
        pyStep rt P ch args = checkDot rt a' ch args) →
      pySteps rt P ((c.precision.map fun p => '.' :: p.chars).getD [] ++ c.length.chars ++
        [c.conv.char]) args = if intMax < c.precValue.getD 0 then .error .precisionTooBig
        else convert rt { a' with prec := c.precValue } c.pyChar args :=
    fun P a' ha' hP => pySteps_prec rt c hp P a' ha' hP args
  have hnotflag : ∀ ch, (ch = '.' ∨ ch = 'h' ∨ ch = 'l' ∨ ch = c.conv.char) →
      ∀ f : PyFlags, f.set ch = none ∧ ch ≠ '*' ∧ ch.isDigit = false := by
    rintro ch (rfl | rfl | rfl | rfl) f
    · exact ⟨rfl, by decide, by decide⟩
    · exact ⟨rfl, by decide, by decide⟩
    · exact ⟨rfl, by decide, by decide⟩
    · exact ⟨Conv.set_char _ f, Conv.char_ne_star _, Conv.char_not_digit _⟩
  conv_lhs => rw [hsplit, List.append_assoc, pySteps_append,
    pySteps_flags rt args zs a fun d h => .inr (.inr (.inr (.inr (hzeros d h))))]
  simp only [Except.bind, map_nil_append_out]
  rw [hval]
  unfold ConvSpec.pyWidth
  rcases hrest : c.widthDigits.dropWhile (· == '0') with _ | ⟨d, ds⟩
  · -- the width is only zeros, which are flags
    rw [List.nil_append, hprec (.flags { a with flags := a.flags.add zs })
      { a with flags := a.flags.add zs } ha.2 fun ch args hch => by
        obtain ⟨hs, hst, hdg⟩ := hnotflag ch hch (a.flags.add zs)
        simp only [pyStep, checkFlag, hs, startWidth, if_neg hst, hdg]
        rfl]
    simp only [numeralValue, List.foldl_nil, Nat.not_lt_zero, if_false, if_true]
    split <;> simp [ha.1]
  · -- a width that starts with the digit `d`
    rw [hrest] at hdigits
    have hd : d.isDigit := hdigits d (List.mem_cons_self _ _)
    have hd0 : d ≠ '0' := by
      have := List.head_dropWhile_not (· == '0') c.widthDigits (by rw [hrest]; simp)
      simp only [hrest, List.head_cons] at this
      exact fun e => absurd (e ▸ this) (by decide)
    have hfirst : pyStep rt (.flags { a with flags := a.flags.add zs }) d args =
        .ok (.widthDigits { a with flags := a.flags.add zs, width := some (digitValue d) }, args, []) := by
      have hstar : d ≠ '*' := fun e => by subst e; exact absurd hd (by decide)
      simp only [pyStep, checkFlag, PyFlags.set_of_digit hd hd0, startWidth, if_neg hstar, hd,
        if_true]
    have hrun := pySteps_digits rt pySsizeTMax
      (fun w => .widthDigits { a with flags := a.flags.add zs, width := some w })
      .widthTooBig (fun n d' args hd' => by simp only [pyStep, hd', if_true]; rfl)
      (by decide) args ds (digitValue d) (fun d' h' => hdigits d' (List.mem_cons_of_mem _ h'))
      (le_trans (digitValue_le hd) (by decide))
    rw [List.cons_append, pySteps_cons_of_step rt hfirst, pySteps_append, hrun, numeralValue_cons,
      Nat.zero_mul, Nat.zero_add]
    by_cases hgt : numeralValue (digitValue d) ds ≤ pySsizeTMax
    · simp only [if_pos hgt, if_neg (Nat.not_lt.mpr hgt), Except.bind]
      let a₂ : PyArgSpec :=
        { a with flags := a.flags.add zs, width := some (numeralValue (digitValue d) ds) }
      rw [hprec (.widthDigits a₂) a₂ ha.2 fun ch args hch => by
          obtain ⟨-, -, hdg⟩ := hnotflag ch hch a.flags
          simp only [pyStep, hdg]
          rfl]
      rw [if_neg (List.cons_ne_nil d ds), hval, hrest, numeralValue_cons, Nat.zero_mul,
        Nat.zero_add]
      split <;> simp only [map_nil_append_out]
    · rw [if_neg hgt, if_pos (Nat.lt_of_not_le hgt)]
      rfl

theorem Count.lparen_not_mem_chars (w : Count) : '(' ∉ w.chars := by
  cases w with
  | num ds h => exact fun hm => absurd (h.2 _ hm) (by decide)
  | star => decide

theorem ConvSpec.lparen_not_mem_body (c : ConvSpec) : '(' ∉ c.body := by
  simp only [ConvSpec.body, List.mem_append, List.mem_map, List.mem_singleton, not_or]
  refine ⟨⟨⟨⟨fun ⟨f, _, h⟩ => ?_, ?_⟩, ?_⟩, ?_⟩, ?_⟩
  · cases f <;> simp [Flag.char] at h
  · cases c.width <;> simp [Count.lparen_not_mem_chars]
  · cases c.precision <;> simp [Count.lparen_not_mem_chars]
  · cases c.length <;> decide
  · cases c.conv <;> decide

/-- **Reading a conversion.** Over `%` and the text of a conversion of the C grammar without
`*`, the machine reads the conversion `pyParse` gives, then converts the next argument with
`pyChar`: the conversion character, or the second `l` of `ll`. -/
theorem pySteps_text_conv (c : ConvSpec) (hw : c.width ≠ some .star)
    (hp : c.precision ≠ some .star) (args : List PyArg) :
  pySteps rt .text ('%' :: c.body) args = c.pyParse.bind fun a => convert rt a c.pyChar args
  := by
  rw [@pySteps_cons_of_step rt .text .percent '%' args args [] rfl, map_nil_append_out]
  obtain ⟨x, xs, hx⟩ := List.exists_cons_of_ne_nil c.body_ne_nil
  have hxmem : x ∈ c.body := hx ▸ List.mem_cons_self _ _
  have h₁ : x ≠ '%' := fun e => c.percent_not_mem_body (e ▸ hxmem)
  have h₂ : x ≠ '(' := fun e => c.lparen_not_mem_body (e ▸ hxmem)
  have hpercent : pySteps rt .percent c.body args =
      pySteps rt (.flags ⟨.empty, none, none⟩) c.body args := by
    rw [hx]
    simp only [pySteps, pyStep, if_neg h₁, if_neg h₂]
  have hbody : c.body = c.flags.map Flag.char ++ (c.widthDigits ++
      ((c.precision.map fun p => '.' :: p.chars).getD [] ++ c.length.chars ++ [c.conv.char])) := by
    simp [ConvSpec.body, c.width_chars hw]
  have hflags : ∀ x ∈ c.flags.map Flag.char, x = '-' ∨ x = '+' ∨ x = ' ' ∨ x = '#' ∨ x = '0' :=
    fun x hx => by
      obtain ⟨f, -, rfl⟩ := List.mem_map.mp hx
      cases f <;> simp [Flag.char]
  rw [hpercent, hbody, pySteps_append, pySteps_flags rt args _ _ hflags]
  simp only [Except.bind, map_nil_append_out]
  rw [pySteps_width rt c hp _ ⟨rfl, rfl⟩ args]
  unfold ConvSpec.pyParse
  split_ifs <;> simp [Except.bind, PyFlags.add_add, ConvSpec.pyFlags]

theorem convert_text {a : PyArgSpec} {ch : Char} {args : List PyArg}
    {r : PyPhase × List PyArg × List Char} (h : convert rt a ch args = .ok r) : r.1 = .text := by
  unfold convert at h
  cases hn : nextArg args with
  | error e => simp [hn, Except.bind] at h
  | ok v =>
    cases hf : formatArg rt a ch v.1 with
    | error e => simp [hn, hf, Except.bind, Except.map] at h
    | ok out =>
      simp only [hn, hf, Except.bind, Except.map, Except.ok.injEq] at h
      exact h ▸ rfl

end Conversion

/-! ### `%` on a C format -/

/-- `%` on the text of C format items, item by item: a character is copied, `%%` gives `%`,
and a conversion reads its argument as `pySteps_text_conv` says. -/
def pyItems (rt : PyRuntime) : List FmtItem → List PyArg → Except PyFormatError (List Char)
  | [], [] => .ok []
  | [], _ :: _ => .error .notAllConverted
  | .lit c _ :: its, args => (pyItems rt its args).map (c :: ·)
  | .escape :: its, args => (pyItems rt its args).map ('%' :: ·)
  | .conv c :: its, args =>
    (c.pyParse.bind fun a => convert rt a c.pyChar args).bind fun r =>
      (pyItems rt its r.2.1).map (r.2.2 ++ ·)

/-- On the text of C format items without `*`, `%` is `pyItems`. -/
theorem pyFormat_formatText (rt : PyRuntime) :
    ∀ (items : List FmtItem), (∀ c, FmtItem.conv c ∈ items →
      c.width ≠ some .star ∧ c.precision ≠ some .star) →
    ∀ args, pyFormat rt (formatText items) args = pyItems rt items args
  | [], _, [] => rfl
  | [], _, _ :: _ => rfl
  | .lit c hc :: its, h, args => by
    have ih := pyFormat_formatText rt its (fun c' h' => h c' (List.mem_cons_of_mem _ h')) args
    rw [pyFormat, formatText, List.flatMap_cons, pyFormatRun_append, FmtItem.text,
      pySteps_text rt args [c] fun e => hc (List.mem_singleton.mp e).symm, pyItems, ← ih]
    rfl
  | .escape :: its, h, args => by
    have ih := pyFormat_formatText rt its (fun c' h' => h c' (List.mem_cons_of_mem _ h')) args
    rw [pyFormat, formatText, List.flatMap_cons, pyFormatRun_append, FmtItem.text, pyItems, ← ih]
    rfl
  | .conv c :: its, h, args => by
    obtain ⟨hw, hp⟩ := h c (List.mem_cons_self _ _)
    have ih := fun args => pyFormat_formatText rt its (fun c' h' => h c' (List.mem_cons_of_mem _ h')) args
    simp only [pyFormat, formatText, List.flatMap_cons, FmtItem.text] at ih ⊢
    rw [pyFormatRun_append, pySteps_text_conv rt c hw hp, pyItems]
    cases hr : c.pyParse.bind fun a => convert rt a c.pyChar args with
    | error e => rfl
    | ok r =>
      have hr1 : r.1 = .text := by
        cases hp' : c.pyParse with
        | error e => simp [hp', Except.bind] at hr
        | ok a => exact convert_text rt (by simpa [hp', Except.bind] using hr)
      simp only [Except.bind, hr1, ih]

end QilingOs
