import QilingOs.Strings

/-!
# `printf` and `sprintf`

`QlOsUtils.__common_printf(format, args, wstring)` cuts `format` at every `%`; for the `i`-th
piece after the first, when it starts with `s`, it replaces `args[i]` by the guest string
`read_cstring` (or `read_wstring`) reads at it. It then replaces `%llx` by `%x` and `%p` by
`%#x` in the format, and hands the format and the arguments to Python's `%` operator, here the
parameter `pyMod`. `va_list(format, ptr)` reads as many pointer-sized words from `ptr` as
`format` has `%` characters, each unpacked by `ql.unpack` in the guest's byte order, here the
parameter `unpack`. `sprintf` writes the text with a NUL after it at `buff` and returns
its length; `printf` writes the text to standard output.

The C side is a format as a list of items (`FmtItem`): characters other than `%`, the escape
`%%`, and conversions `%[flags][width][.precision][length]conv` (`ConvSpec`). `formatText`
spells the items out, `slots` lists the arguments they consume, and `cCall` is the call a C
`printf` makes: the format with `%llx` and `%p` rewritten, and the arguments with the strings of
`s` conversions read.

`split("%")` cuts every format into `formatPieces` (`splitOn_formatText`). When the format has
no escape and no `*`, and its `s` conversions have no flags, width, precision or length
(`FmtItem.Plain`), `va_list` reads one word per consumed argument, the loop reads a string at
exactly the arguments of `s` conversions (`commonPrintfLoop_plain`), and the two replacements
rewrite exactly the conversions `%llx` and `%p` (`pyReplace_formatText`).

Reading strings records their appearance in the ledger and nothing else
(`commonPrintfLoop_ledger`), so `printf` and `sprintf` keep it holding the calls since the last
reset, with every token of every string they read seen at the current counter
(`printf_keeps_ledger`).
-/

namespace QilingOs

variable {P R : Type}

/-! ### The code -/

/-- An argument handed to `%`: a word from `va_list`, or the string read in its place. -/
inductive PyArg where
  | int (n : Nat)
  | str (s : List Char)
  deriving DecidableEq, Repr

/-- `QlOsUtils.va_list(format, ptr)`: `format.count("%")` words of `pointersize` bytes from
`ptr`, each unpacked by `ql.unpack` (`unpack`), which reads a word in the guest's byte order. -/
def vaList (m : Mem) (unpack : List UInt8 → Nat) (pointersize : Nat) (format : List Char)
    (ptr : Nat) : List Nat :=
  (List.range (format.count '%')).map fun i => unpack (m.read (ptr + i * pointersize) pointersize)

/-- `s.replace(old, new)` for a nonempty `old`: the occurrences of `old`, left to right and not
overlapping, replaced by `new`. -/
def pyReplace (old new : List Char) (s : List Char) : List Char :=
  go 0 s
where
  /-- The scan, with `skip` characters of an occurrence already replaced still to pass. -/
  go : Nat → List Char → List Char
    | _, [] => []
    | skip + 1, _ :: s => go skip s
    | 0, c :: s => if old <+: c :: s then new ++ go (old.length - 1) s else c :: go 0 s

/-- The `for` loop of `__common_printf` from the piece with index `i` on: a piece that starts with
`s` has `args[i]` replaced by the string read at it. An index past the arguments, or a string
where an address should be, raises (`none`). -/
def commonPrintfLoop (m : Mem) (wstring : Bool) (fuel : Nat) :
    List (List Char) → Nat → List PyArg → Ledger P R → Option (List PyArg × Ledger P R)
  | [], _, args, l => some (args, l)
  | f :: fs, i, args, l =>
    if f.head? = some 's' then
      match args[i]? with
      | some (.int a) =>
        ((if wstring then readWstring else readCstring) m l a fuel).bind fun r =>
          commonPrintfLoop m wstring fuel fs (i + 1) (args.set i (.str r.1)) r.2
      | _ => none
    else commonPrintfLoop m wstring fuel fs (i + 1) args l

/-- What `__common_printf` hands to `%`: the format with `%llx` and then `%p` replaced, and the
arguments after the loop; with the ledger after the strings read. -/
def commonPrintfCall (m : Mem) (l : Ledger P R) (fuel : Nat) (format : List Char)
    (args : List PyArg) (wstring : Bool) : Option ((List Char × List PyArg) × Ledger P R) :=
  (commonPrintfLoop m wstring fuel ((format.splitOn '%').drop 1) 0 args l).map fun r =>
    ((pyReplace "%p".toList "%#x".toList (pyReplace "%llx".toList "%x".toList format), r.1), r.2)

/-- `QlOsUtils.__common_printf(format, args, wstring)`, with Python's `%` operator as
`pyMod`. -/
def commonPrintf (pyMod : List Char → List PyArg → Option (List Char)) (m : Mem) (l : Ledger P R)
    (fuel : Nat) (format : List Char) (args : List PyArg) (wstring : Bool) :
    Option (List Char × Ledger P R) :=
  (commonPrintfCall m l fuel format args wstring).bind fun r =>
    (pyMod r.1.1 r.1.2).map fun out => (out, r.2)

/-- `QlOsUtils.sprintf(buff, format, args, wstring)`: the memory after
`(out + '\x00').encode(enc)` is written at `buff`, the ledger, and `len(out)`. -/
def sprintf (pyMod : List Char → List PyArg → Option (List Char)) (m : Mem) (l : Ledger P R)
    (fuel buff : Nat) (format : List Char) (args : List PyArg) (wstring : Bool) :
    Option (Mem × Ledger P R × Nat) :=
  (commonPrintf pyMod m l fuel format args wstring).map fun r =>
    (m.write buff ((if wstring then encodeUtf16le else encodeUtf8) (r.1 ++ ['\x00'])), r.2,
      r.1.length)

/-- `QlOsUtils.printf(format, args, wstring)`: the bytes written to standard output, always
UTF-8, the ledger, and `len(out)`. -/
def printf (pyMod : List Char → List PyArg → Option (List Char)) (m : Mem) (l : Ledger P R)
    (fuel : Nat) (format : List Char) (args : List PyArg) (wstring : Bool) :
    Option (List UInt8 × Ledger P R × Nat) :=
  (commonPrintf pyMod m l fuel format args wstring).map fun r =>
    (encodeUtf8 r.1, r.2, r.1.length)

/-! ### The C format -/

/-- A flag of a conversion. -/
inductive Flag where
  | minus
  | plus
  | space
  | hash
  | zero
  deriving DecidableEq, Repr

def Flag.char : Flag → Char
  | .minus => '-'
  | .plus => '+'
  | .space => ' '
  | .hash => '#'
  | .zero => '0'

/-- A field width or precision: a decimal numeral, or `*`, which takes it from the next
argument. -/
inductive Count where
  | num (digits : List Char) (h : digits ≠ [] ∧ ∀ d ∈ digits, d.isDigit)
  | star
  deriving DecidableEq

def Count.chars : Count → List Char
  | .num digits _ => digits
  | .star => ['*']

/-- A length modifier. -/
inductive LenMod where
  | none
  | h
  | l
  | ll
  deriving DecidableEq, Repr

def LenMod.chars : LenMod → List Char
  | .none => []
  | .h => ['h']
  | .l => ['l']
  | .ll => ['l', 'l']

/-- A conversion character. -/
inductive Conv where
  | d
  | i
  | u
  | x
  | X
  | o
  | c
  | p
  | s
  deriving DecidableEq, Repr

def Conv.char : Conv → Char
  | .d => 'd'
  | .i => 'i'
  | .u => 'u'
  | .x => 'x'
  | .X => 'X'
  | .o => 'o'
  | .c => 'c'
  | .p => 'p'
  | .s => 's'

/-- A conversion `%[flags][width][.precision][length]conv`. -/
structure ConvSpec where
  flags : List Flag
  width : Option Count
  precision : Option Count
  length : LenMod
  conv : Conv
  deriving DecidableEq

/-- The text of a conversion after its `%`. -/
def ConvSpec.body (c : ConvSpec) : List Char :=
  c.flags.map Flag.char ++ (c.width.map Count.chars).getD [] ++
    (c.precision.map fun p => '.' :: p.chars).getD [] ++ c.length.chars ++ [c.conv.char]

/-- An item of a format: a character other than `%`, the escape `%%`, or a conversion. -/
inductive FmtItem where
  | lit (c : Char) (h : c ≠ '%')
  | escape
  | conv (c : ConvSpec)
  deriving DecidableEq

def FmtItem.text : FmtItem → List Char
  | .lit c _ => [c]
  | .escape => ['%', '%']
  | .conv c => '%' :: c.body

/-- The format string the items spell. -/
def formatText (items : List FmtItem) : List Char :=
  items.flatMap FmtItem.text

/-- The arguments a conversion consumes, in order: a `*` width, a `*` precision, then the value,
marked `true` when it is the address of the string an `s` conversion prints. -/
def ConvSpec.slots (c : ConvSpec) : List Bool :=
  (if c.width = some .star then [false] else []) ++
    (if c.precision = some .star then [false] else []) ++ [decide (c.conv = .s)]

def FmtItem.slots : FmtItem → List Bool
  | .conv c => c.slots
  | _ => []

/-- The arguments the items consume. -/
def slots (items : List FmtItem) : List Bool :=
  items.flatMap FmtItem.slots

/-- `%llx` as `%x` and `%p` as `%#x`: the two rewrites, of whole conversions. -/
def ConvSpec.rewrite (c : ConvSpec) : ConvSpec :=
  if c = ⟨[], none, none, .ll, .x⟩ then ⟨[], none, none, .none, .x⟩
  else if c = ⟨[], none, none, .none, .p⟩ then ⟨[.hash], none, none, .none, .x⟩
  else c

def FmtItem.rewrite : FmtItem → FmtItem
  | .conv c => .conv c.rewrite
  | it => it

/-- The arguments with strings read: one consumed by an `s` conversion becomes the string `read`
gives at it, and the others stay words. -/
def derefArgs (read : Nat → Option (List Char)) : List Bool → List Nat → Option (List PyArg)
  | true :: ks, a :: as => (read a).bind fun s => (derefArgs read ks as).map (.str s :: ·)
  | false :: ks, a :: as => (derefArgs read ks as).map (.int a :: ·)
  | _, as => some (as.map .int)

/-- The call a C `printf` of the items with the arguments `args` makes, once `%llx` and `%p` are
rewritten and strings read. -/
def cCall (read : Nat → Option (List Char)) (items : List FmtItem) (args : List Nat) :
    Option (List Char × List PyArg) :=
  (derefArgs read (slots items) args).map fun a => (formatText (items.map FmtItem.rewrite), a)

/-- A conversion that consumes only its value, and that is a bare `%s` when it prints a
string. -/
def ConvSpec.Plain (c : ConvSpec) : Prop :=
  c.width ≠ some .star ∧ c.precision ≠ some .star ∧
    (c.conv = .s → c.flags = [] ∧ c.width = none ∧ c.precision = none ∧ c.length = .none)

instance (c : ConvSpec) : Decidable c.Plain := inferInstanceAs (Decidable (_ ∧ _ ∧ _))

/-- An item of a format the split on `%` handles: a character, or a plain conversion. -/
def FmtItem.Plain : FmtItem → Prop
  | .lit _ _ => True
  | .escape => False
  | .conv c => c.Plain

instance : (it : FmtItem) → Decidable it.Plain
  | .lit _ _ => isTrue trivial
  | .escape => isFalse id
  | .conv c => inferInstanceAs (Decidable c.Plain)

/-- The value of a decimal digit. -/
def digitValue (c : Char) : Nat := c.toNat - '0'.toNat

/-- The value of the decimal digits `ds` written after the value `n`. -/
def numeralValue (n : Nat) (ds : List Char) : Nat :=
  ds.foldl (fun v d => v * 10 + digitValue d) n

/-- The digits of a conversion's width, none when it has none or takes it from `*`. Leading
zeros among them read as the flag `0`, in C and in Python alike. -/
def ConvSpec.widthDigits (c : ConvSpec) : List Char :=
  match c.width with
  | some (.num ds _) => ds
  | _ => []

/-- The precision a conversion writes out. -/
def ConvSpec.precValue (c : ConvSpec) : Option Nat :=
  match c.precision with
  | some (.num ds _) => some (numeralValue 0 ds)
  | _ => none

/-- The conversion pads with zeros: it has the flag `0`, or its width starts with `0`. -/
def ConvSpec.zeroFlag (c : ConvSpec) : Bool :=
  decide (Flag.zero ∈ c.flags) || c.widthDigits.head? == some '0'

/-- The pieces `split("%")` cuts the items' text into. -/
def formatPieces : List FmtItem → List (List Char)
  | [] => [[]]
  | .lit c _ :: its => (formatPieces its).modifyHead (c :: ·)
  | .escape :: its => [] :: [] :: formatPieces its
  | .conv c :: its => [] :: (formatPieces its).modifyHead (c.body ++ ·)

/-! ### The text of a format -/

theorem Count.percent_not_mem_chars (w : Count) : '%' ∉ w.chars := by
  cases w with
  | num ds h => exact fun hm => absurd (h.2 _ hm) (by decide)
  | star => decide

theorem ConvSpec.percent_not_mem_body (c : ConvSpec) : '%' ∉ c.body := by
  simp only [ConvSpec.body, List.mem_append, List.mem_map, List.mem_singleton, not_or]
  refine ⟨⟨⟨⟨fun ⟨f, _, h⟩ => ?_, ?_⟩, ?_⟩, ?_⟩, ?_⟩
  · cases f <;> simp [Flag.char] at h
  · cases c.width <;> simp [Count.percent_not_mem_chars]
  · cases c.precision <;> simp [Count.percent_not_mem_chars]
  · cases c.length <;> decide
  · cases c.conv <;> decide

theorem ConvSpec.body_ne_nil (c : ConvSpec) : c.body ≠ [] := by
  simp [ConvSpec.body]

/-- A conversion's text starts with a character that is no flag, digit, `*`, `.` or length letter
only when the conversion is bare and that character is its conversion character. -/
theorem ConvSpec.head?_body_eq {c : ConvSpec} {ch : Char}
    (hch : ch ∉ ['-', '+', ' ', '#', '0', '*', '.', 'h', 'l']) (hd : ch.isDigit = false) :
  c.body.head? = some ch ↔
    c.flags = [] ∧ c.width = none ∧ c.precision = none ∧ c.length = .none ∧ c.conv.char = ch
  := by
  obtain ⟨flags, width, precision, length, conv⟩ := c
  simp only [List.mem_cons, List.not_mem_nil, or_false, not_or] at hch
  obtain ⟨h₁, h₂, h₃, h₄, h₅, h₆, h₇, h₈, h₉⟩ := hch
  rcases flags with _ | ⟨f, fs⟩
  · rcases width with _ | (⟨_ | ⟨d, ds⟩, h⟩ | _)
    · rcases precision with _ | p
      · cases length <;> simp [ConvSpec.body, LenMod.chars, Ne.symm h₈, Ne.symm h₉]
      · simp [ConvSpec.body, Ne.symm h₇]
    · exact absurd rfl h.1
    · have : d ≠ ch := fun e => by have := h.2 d (List.mem_cons_self _ _); simp_all
      simp [ConvSpec.body, Count.chars, this]
    · simp [ConvSpec.body, Count.chars, Ne.symm h₆]
  · cases f <;> simp [ConvSpec.body, Flag.char, Ne.symm h₁, Ne.symm h₂, Ne.symm h₃, Ne.symm h₄,
      Ne.symm h₅]

/-- What a nonempty text followed by anything starts with is what the text starts with. -/
theorem List.prefix_append_of_ne_nil {a : Char} {o xs rest : List Char} (hxs : xs ≠ [])
    (h : a :: o <+: xs ++ rest) : xs.head? = some a := by
  obtain ⟨x, xs, rfl⟩ := List.exists_cons_of_ne_nil hxs
  simp_all [List.cons_prefix_cons]

/-- The only conversion whose text, followed by anything, starts with `llx` is `llx` itself. -/
theorem ConvSpec.eq_of_llx_prefix {c : ConvSpec} {rest : List Char}
    (h : ['l', 'l', 'x'] <+: c.body ++ rest) : c = ⟨[], none, none, .ll, .x⟩ := by
  obtain ⟨flags, width, precision, length, conv⟩ := c
  have hhead := List.prefix_append_of_ne_nil (ConvSpec.body_ne_nil _) h
  rcases flags with _ | ⟨f, fs⟩
  · rcases width with _ | (⟨_ | ⟨d, ds⟩, hw⟩ | _)
    · rcases precision with _ | p
      · cases length <;> cases conv <;> simp [ConvSpec.body, LenMod.chars, Conv.char,
          List.cons_prefix_cons] at h ⊢
      · simp [ConvSpec.body] at hhead
    · exact absurd rfl hw.1
    · have hd := hw.2 d (List.mem_cons_self _ _)
      simp [ConvSpec.body, Count.chars] at hhead
      exact absurd (hhead ▸ hd) (by decide)
    · simp [ConvSpec.body, Count.chars] at hhead
  · cases f <;> simp [ConvSpec.body, Flag.char] at hhead

/-- The only conversion whose text, followed by anything, starts with `p` is `p` itself. -/
theorem ConvSpec.eq_of_p_prefix {c : ConvSpec} {rest : List Char}
    (h : ['p'] <+: c.body ++ rest) : c = ⟨[], none, none, .none, .p⟩ := by
  have := (ConvSpec.head?_body_eq (by decide) (by decide)).1
    (List.prefix_append_of_ne_nil (ConvSpec.body_ne_nil _) h)
  obtain ⟨flags, width, precision, length, conv⟩ := c
  obtain ⟨rfl, rfl, rfl, rfl, hc⟩ := this
  cases conv <;> simp_all [Conv.char]


section Replace

variable {o new : List Char}

/-- After an occurrence, the scan passes over the rest of it. -/
theorem pyReplace.go_skip (old : List Char) :
    ∀ (xs rest : List Char), pyReplace.go old new xs.length (xs ++ rest) = pyReplace.go old new 0 rest
  | [], _ => rfl
  | _ :: xs, rest => by
    simp only [List.length_cons, List.cons_append, pyReplace.go]
    exact pyReplace.go_skip old xs rest

/-- Text without `%` passes through the scan for an occurrence that starts with `%`. -/
theorem pyReplace.go_append_of_not_mem {xs : List Char} (hxs : '%' ∉ xs) (rest : List Char) :
  pyReplace.go ('%' :: o) new 0 (xs ++ rest) = xs ++ pyReplace.go ('%' :: o) new 0 rest
  := by
  induction xs with
  | nil => rfl
  | cons c cs ih =>
    have hc : c ≠ '%' := fun h => hxs (h ▸ List.mem_cons_self _ _)
    simp only [List.cons_append, pyReplace.go, List.cons_prefix_cons, Ne.symm hc, false_and,
      if_false, List.append_eq, ih fun h => hxs (List.mem_cons_of_mem _ h)]

/-- In a format without escapes, replacing `%` and the text of `c₀` by `%` and the text of
`c₁`, when the text of no other conversion starts with that of `c₀`, rewrites exactly the
conversions `c₀` to `c₁`. -/
theorem pyReplace_formatText {c₀ c₁ : ConvSpec}
    (hpre : ∀ (c : ConvSpec) (rest : List Char), c₀.body <+: c.body ++ rest → c = c₀) :
    ∀ items : List FmtItem, (∀ it ∈ items, it ≠ .escape) →
      pyReplace ('%' :: c₀.body) ('%' :: c₁.body) (formatText items) =
        formatText (items.map fun it => if it = .conv c₀ then .conv c₁ else it)
  | [], _ => rfl
  | it :: its, hesc => by
    have ih := @pyReplace_formatText c₀ c₁ hpre its fun it' h => hesc it' (List.mem_cons_of_mem _ h)
    simp only [pyReplace, formatText, List.flatMap_cons, List.map_cons] at ih ⊢
    match it, hesc it (List.mem_cons_self _ _) with
    | .lit c hc, _ =>
      rw [show FmtItem.text (.lit c hc) = [c] from rfl,
        pyReplace.go_append_of_not_mem (by simpa using Ne.symm hc), ih]
      simp [FmtItem.text]
    | .escape, h => exact absurd rfl h
    | .conv c, _ =>
      by_cases hc : c = c₀
      · subst hc
        simp only [FmtItem.text, List.cons_append, pyReplace.go, List.cons_prefix_cons, true_and,
          List.prefix_append, if_true, List.length_cons, Nat.add_sub_cancel, List.append_eq,
          pyReplace.go_skip, ih]
      · have hno : ¬ ('%' :: c₀.body) <+: ('%' :: (c.body ++ its.flatMap FmtItem.text)) := fun h =>
          hc (hpre c _ (List.cons_prefix_cons.mp h).2)
        simp only [FmtItem.text, List.cons_append, pyReplace.go, if_neg hno, List.append_eq,
          pyReplace.go_append_of_not_mem (ConvSpec.percent_not_mem_body c), ih]
        simp [hc]

/-- The two replacements of `__common_printf` rewrite a format without escapes as
`FmtItem.rewrite` does. -/
theorem pyReplace_pyReplace_formatText (items : List FmtItem)
    (hesc : ∀ it ∈ items, it ≠ .escape) :
  pyReplace "%p".toList "%#x".toList (pyReplace "%llx".toList "%x".toList (formatText items)) =
    formatText (items.map FmtItem.rewrite)
  := by
  have h₁ := @pyReplace_formatText ⟨[], none, none, .ll, .x⟩ ⟨[], none, none, .none, .x⟩
    (fun _ _ h => ConvSpec.eq_of_llx_prefix h) items hesc
  rw [show "%llx".toList = '%' :: ConvSpec.body ⟨[], none, none, .ll, .x⟩ from rfl,
    show "%x".toList = '%' :: ConvSpec.body ⟨[], none, none, .none, .x⟩ from rfl,
    show "%p".toList = '%' :: ConvSpec.body ⟨[], none, none, .none, .p⟩ from rfl,
    show "%#x".toList = '%' :: ConvSpec.body ⟨[.hash], none, none, .none, .x⟩ from rfl, h₁,
    @pyReplace_formatText ⟨[], none, none, .none, .p⟩ ⟨[.hash], none, none, .none, .x⟩
      (fun _ _ h => ConvSpec.eq_of_p_prefix h) _ ?_, List.map_map]
  · congr 1
    refine List.map_congr_left fun it _ => ?_
    cases it <;> simp [FmtItem.rewrite, ConvSpec.rewrite]
    split_ifs <;> simp_all
  · simp only [List.mem_map]
    rintro _ ⟨it, hit, rfl⟩
    split_ifs
    · exact FmtItem.noConfusion
    · exact hesc it hit

end Replace


/-! ### `split("%")` -/

/-- Text without `%` joins the first piece of what follows it. -/
theorem splitOn_append_of_not_mem {xs : List Char} (hxs : '%' ∉ xs) (rest : List Char) :
  (xs ++ rest).splitOn '%' = (rest.splitOn '%').modifyHead (xs ++ ·)
  := by
  induction xs with
  | nil =>
    rw [List.nil_append]
    generalize rest.splitOn '%' = ps
    cases ps <;> rfl
  | cons c cs ih =>
    have hc : (c == '%') = false := beq_false_of_ne fun h => hxs (h ▸ List.mem_cons_self _ _)
    rw [List.cons_append, List.splitOn, List.splitOnP_cons, hc, if_neg Bool.false_ne_true,
      ← List.splitOn, ih fun h => hxs (List.mem_cons_of_mem _ h), List.modifyHead_modifyHead]
    rfl

/-- `split("%")` cuts the text of a format into its pieces. -/
theorem splitOn_formatText : ∀ items : List FmtItem, (formatText items).splitOn '%' = formatPieces items
  | [] => rfl
  | .lit c hc :: its => by
    rw [formatText, List.flatMap_cons, ← formatText, show FmtItem.text (.lit c hc) = [c] from rfl,
      splitOn_append_of_not_mem (by simpa using Ne.symm hc), splitOn_formatText its, formatPieces]
    rfl
  | .escape :: its => by
    rw [formatText, List.flatMap_cons, ← formatText, formatPieces, ← splitOn_formatText its]
    simp [FmtItem.text, List.splitOn]
  | .conv c :: its => by
    rw [formatText, List.flatMap_cons, ← formatText, formatPieces, ← splitOn_formatText its,
      FmtItem.text, List.cons_append, List.splitOn, List.splitOnP_cons, if_pos (by simp),
      ← List.splitOn, splitOn_append_of_not_mem (ConvSpec.percent_not_mem_body c)]

theorem formatPieces_ne_nil : ∀ items : List FmtItem, formatPieces items ≠ []
  | [] | .escape :: _ | .conv _ :: _ => by simp [formatPieces]
  | .lit _ _ :: its => by simpa [formatPieces] using formatPieces_ne_nil its


/-- A plain conversion's text starts with `s` exactly when it is an `s` conversion. -/
theorem ConvSpec.head?_body_eq_s {c : ConvSpec} (hc : c.Plain) :
  c.body.head? = some 's' ↔ c.conv = .s
  := by
  rw [ConvSpec.head?_body_eq (by decide) (by decide)]
  constructor
  · rintro ⟨-, -, -, -, h⟩
    cases hconv : c.conv <;> simp_all [Conv.char]
  · intro h
    exact ⟨(hc.2.2 h).1, (hc.2.2 h).2.1, (hc.2.2 h).2.2.1, (hc.2.2 h).2.2.2, by rw [h]; rfl⟩

theorem ConvSpec.slots_of_plain {c : ConvSpec} (hc : c.Plain) : c.slots = [decide (c.conv = .s)] := by
  simp [ConvSpec.slots, hc.1, hc.2.1]

section Loop

variable (m : Mem) (wstring : Bool) (fuel : Nat)

/-- Over a plain format, the loop reads a string at exactly the arguments of `s` conversions:
from the piece with index `done.length` on, past the arguments `done` already handled. -/
theorem commonPrintfLoop_plain :
    ∀ (items : List FmtItem), (∀ it ∈ items, it.Plain) →
    ∀ (done : List PyArg) (args : List Nat) (l : Ledger P R), args.length = (slots items).length →
      (commonPrintfLoop m wstring fuel ((formatPieces items).drop 1) done.length
        (done ++ args.map .int) l).map Prod.fst =
      (derefArgs (fun a => readText m wstring a fuel) (slots items) args).map (done ++ ·)
  | [], _, done, args, l, hargs => by
    rw [List.eq_nil_of_length_eq_zero hargs]
    simp [formatPieces, commonPrintfLoop, derefArgs]
  | .lit c hc :: its, hp, done, args, l, hargs => by
    have hdrop : (formatPieces (.lit c hc :: its)).drop 1 = (formatPieces its).drop 1 := by
      simp only [formatPieces]
      cases formatPieces its <;> rfl
    rw [hdrop]
    exact commonPrintfLoop_plain its (fun it h => hp it (List.mem_cons_of_mem _ h)) done args l
      hargs
  | .escape :: _, hp, _, _, _, _ => absurd (hp _ (List.mem_cons_self _ _)) id
  | .conv c :: its, hp, done, args, l, hargs => by
    have hc : c.Plain := hp (.conv c) (List.mem_cons_self _ _)
    have hp' : ∀ it ∈ its, it.Plain := fun it h => hp it (List.mem_cons_of_mem _ h)
    have hslots : slots (.conv c :: its) = decide (c.conv = .s) :: slots its := by
      simp [slots, FmtItem.slots, ConvSpec.slots_of_plain hc]
    obtain ⟨p, ps, hps⟩ := List.exists_cons_of_ne_nil (formatPieces_ne_nil its)
    obtain ⟨a, as, rfl⟩ : ∃ a as, args = a :: as := by
      cases args with
      | nil => simp [hslots] at hargs
      | cons a as => exact ⟨a, as, rfl⟩
    have has : as.length = (slots its).length := by simpa [hslots] using hargs
    have hhead : (c.body ++ p).head? = some 's' ↔ c.conv = .s := by
      rw [List.head?_append_of_ne_nil _ (ConvSpec.body_ne_nil c), ConvSpec.head?_body_eq_s hc]
    simp only [formatPieces, hps, List.modifyHead_cons, List.drop_one, List.tail_cons, hslots]
    by_cases hcs : c.conv = .s
    · have hget : (done ++ (a :: as).map PyArg.int)[done.length]? = some (.int a) := by
        rw [List.getElem?_append_right (le_refl _), Nat.sub_self, List.map_cons,
          List.getElem?_cons_zero]
      simp only [commonPrintfLoop, hhead.2 hcs, if_true, hget, readWstring_or_readCstring,
        decide_eq_true hcs]
      cases hr : readText m wstring a fuel with
      | none => simp [derefArgs, hr]
      | some str =>
        have := commonPrintfLoop_plain its hp' (done ++ [.str str]) as (l.stringAppearance ⟨str⟩) has
        simp only [hps, List.drop_one, List.tail_cons, List.length_append, List.length_singleton,
          List.append_assoc, List.singleton_append] at this
        simp only [Option.map_some', Option.some_bind, List.map_cons,
          List.set_append_right _ _ (le_refl _), Nat.sub_self, List.set_cons_zero, this, derefArgs,
          hr, Option.map_map, Function.comp_def]
    · simp only [commonPrintfLoop, if_neg (mt hhead.1 hcs), decide_eq_false hcs]
      have := commonPrintfLoop_plain its hp' (done ++ [.int a]) as l has
      simp only [hps, List.drop_one, List.tail_cons, List.length_append, List.length_singleton,
        List.append_assoc, List.singleton_append] at this
      simp only [List.map_cons, this, derefArgs, Option.map_map, Function.comp_def]

end Loop


theorem FmtItem.Plain.ne_escape {it : FmtItem} (h : it.Plain) : it ≠ .escape := by
  rintro rfl
  exact h

/-- A plain format has one `%` for each argument it consumes. -/
theorem count_formatText_of_plain :
    ∀ items : List FmtItem, (∀ it ∈ items, it.Plain) → (formatText items).count '%' = (slots items).length
  | [], _ => rfl
  | it :: its, hp => by
    have ih := count_formatText_of_plain its fun it' h => hp it' (List.mem_cons_of_mem _ h)
    simp only [formatText, slots, List.flatMap_cons, List.count_append, List.length_append] at ih ⊢
    rw [ih]
    match it, hp it (List.mem_cons_self _ _) with
    | .lit c hc, _ => simp [FmtItem.text, FmtItem.slots, List.count_cons, Ne.symm hc]
    | .conv c, hc =>
      simp [FmtItem.text, FmtItem.slots, ConvSpec.slots_of_plain hc, List.count_cons,
        List.count_eq_zero_of_not_mem (ConvSpec.percent_not_mem_body c), Nat.add_comm]

/-! ### What `__common_printf` hands to `%` -/

/-- What `__common_printf` hands to `%` for a plain format: the C call, with `%llx` and `%p`
rewritten and the strings of `s` conversions read. -/
theorem commonPrintfCall_formatText (m : Mem) (l : Ledger P R) (fuel : Nat) (items : List FmtItem)
    (hplain : ∀ it ∈ items, it.Plain) (wstring : Bool) (args : List Nat)
    (hargs : args.length = (slots items).length) :
  (commonPrintfCall m l fuel (formatText items) (args.map .int) wstring).map Prod.fst =
    cCall (fun a => readText m wstring a fuel) items args
  := by
  have hloop := commonPrintfLoop_plain m wstring fuel items hplain [] args l hargs
  rw [List.nil_append, List.length_nil] at hloop
  rw [commonPrintfCall, cCall, splitOn_formatText,
    pyReplace_pyReplace_formatText items fun it h => (hplain it h).ne_escape, Option.map_map]
  simpa [Option.map_map, Function.comp_def] using
    congrArg (Option.map fun a => (formatText (items.map FmtItem.rewrite), a)) hloop

/-- For a format without escapes or `*`, whose `s` conversions are bare, `va_list` reads one word
for each argument the format consumes, and `__common_printf` hands `%` the C call: the format with
exactly its conversions `%llx` and `%p` rewritten, and the arguments with a string read at exactly
those of `s` conversions. -/
theorem printf_c_call (items : List FmtItem) (hplain : ∀ it ∈ items, it.Plain) (m : Mem)
    (l : Ledger P R) (fuel pointersize ptr : Nat) (unpack : List UInt8 → Nat) (wstring : Bool)
    (args : List Nat) (hargs : args.length = (slots items).length) :
  vaList m unpack pointersize (formatText items) ptr =
      (List.range (slots items).length).map
        (fun i => unpack (m.read (ptr + i * pointersize) pointersize)) ∧
    (commonPrintfCall m l fuel (formatText items) (args.map .int) wstring).map Prod.fst =
      cCall (fun a => readText m wstring a fuel) items args
  := ⟨by rw [vaList, count_formatText_of_plain items hplain],
    commonPrintfCall_formatText m l fuel items hplain wstring args hargs⟩

theorem printf_c_call_s_eq_d :
    (∀ it ∈ [FmtItem.conv ⟨[], none, none, .none, .s⟩, .lit '=' (by decide),
      .conv ⟨[], none, none, .none, .d⟩], it.Plain) ∧
    [16, 5].length = (slots [FmtItem.conv ⟨[], none, none, .none, .s⟩, .lit '=' (by decide),
      .conv ⟨[], none, none, .none, .d⟩]).length ∧
    (vaList (fun _ => 0) ofLeBytes 4 (formatText [FmtItem.conv ⟨[], none, none, .none, .s⟩,
      .lit '=' (by decide), .conv ⟨[], none, none, .none, .d⟩]) 0 =
      (List.range (slots [FmtItem.conv ⟨[], none, none, .none, .s⟩, .lit '=' (by decide),
        .conv ⟨[], none, none, .none, .d⟩]).length).map
        (fun i => ofLeBytes (Mem.read (fun _ => 0) (0 + i * 4) 4)) ∧
    (commonPrintfCall (fun _ => 0) (Ledger.init : Ledger Unit Unit) 4
      (formatText [FmtItem.conv ⟨[], none, none, .none, .s⟩, .lit '=' (by decide),
        .conv ⟨[], none, none, .none, .d⟩]) ([16, 5].map .int) false).map Prod.fst =
      cCall (fun a => readText (fun _ => 0) false a 4) [FmtItem.conv ⟨[], none, none, .none, .s⟩,
        .lit '=' (by decide), .conv ⟨[], none, none, .none, .d⟩] [16, 5])
  := ⟨by decide, by decide, printf_c_call _ (by decide) (fun _ => 0) Ledger.init 4 4 0 ofLeBytes false
    [16, 5] (by decide)⟩

/-- Where the split on `%` goes wrong: `%%` makes `va_list` read two words for no argument and
`%*d` one word for two; the argument of `%5s` is not read as a string; and in `%%p` the
literal `p` after the escape is rewritten to `#x`. -/
theorem printf_split_mismatch :
    (vaList (fun _ => 0) ofLeBytes 4 (formatText [.escape]) 0).length = 2 ∧ slots [.escape] = [] ∧
    (vaList (fun _ => 0) ofLeBytes 4 (formatText [.conv ⟨[], some .star, none, .none, .d⟩])
      0).length = 1 ∧
    slots [.conv ⟨[], some .star, none, .none, .d⟩] = [false, false] ∧
    slots [.conv ⟨[], some (.num ['5'] (by decide)), none, .none, .s⟩] = [true] ∧
    (commonPrintfCall (fun _ => 0) (Ledger.init : Ledger Unit Unit) 4
      (formatText [.conv ⟨[], some (.num ['5'] (by decide)), none, .none, .s⟩]) [.int 16]
      false).map (·.1.2) = some [.int 16] ∧
    (commonPrintfCall (fun _ => 0) (Ledger.init : Ledger Unit Unit) 4
      (formatText [.escape, .lit 'p' (by decide)]) [] false).map (·.1.1) = some "%%#x".toList ∧
    formatText ([FmtItem.escape, .lit 'p' (by decide)].map FmtItem.rewrite) = "%%p".toList
  := by decide

/-! ### `sprintf` -/

/-- `sprintf` writes its text with a NUL at `buff` and returns the text's length. -/
theorem sprintf_of_commonPrintf {pyMod : List Char → List PyArg → Option (List Char)} {m : Mem}
    {l l' : Ledger P R} {fuel : Nat} {format : List Char} {args : List PyArg} {wstring : Bool}
    {out : List Char} (hout : commonPrintf pyMod m l fuel format args wstring = some (out, l'))
    (buff : Nat) :
  sprintf pyMod m l fuel buff format args wstring =
    some (m.write buff ((if wstring then encodeUtf16le else encodeUtf8) (out ++ ['\x00'])), l',
      out.length)
  := by
  simp [sprintf, hout]

/-- A narrow NUL-free text written by `sprintf` reads back with `read_cstring` with every
character beyond ASCII dropped. -/
theorem sprintf_cstring_drops_non_ascii (pyMod : List Char → List PyArg → Option (List Char))
    (m : Mem) (l : Ledger P R) (fuel buff : Nat) (format : List Char) (args : List PyArg)
    (out : List Char) (l' : Ledger P R)
    (hout : commonPrintf pyMod m l fuel format args false = some (out, l'))
    (hnul : '\x00' ∉ out) :
  ∃ m', sprintf pyMod m l fuel buff format args false = some (m', l', out.length) ∧
    ∀ fuel', (encodeUtf8 out).length < fuel' → ∀ l₂ : Ledger P R,
      (readCstring m' l₂ buff fuel').map Prod.fst = some (out.filter (·.toNat < 0x80))
  := by
  refine ⟨_, sprintf_of_commonPrintf hout buff, fun fuel' hf l₂ => ?_⟩
  rw [show readCstring = (if false then readWstring else readCstring) from rfl,
    readWstring_or_readCstring, Option.map_map]
  simp [readText, readString_write_encodeUtf8_filter hnul hf fun a _ _ => rfl]

theorem sprintf_cstring_drops_non_ascii_e :
    commonPrintf (fun _ _ => some ['a', 'é']) (fun _ => 0) (Ledger.init : Ledger Unit Unit) 1 [] []
      false = some (['a', 'é'], Ledger.init) ∧ '\x00' ∉ ['a', 'é'] ∧
    ∃ m', sprintf (fun _ _ => some ['a', 'é']) (fun _ => 0) (Ledger.init : Ledger Unit Unit) 1 0
        [] [] false =
        some (m', Ledger.init, ['a', 'é'].length) ∧
      ∀ fuel', (encodeUtf8 ['a', 'é']).length < fuel' → ∀ l₂ : Ledger Unit Unit,
        (readCstring m' l₂ 0 fuel').map Prod.fst = some (['a', 'é'].filter (·.toNat < 0x80))
  := ⟨rfl, by decide, sprintf_cstring_drops_non_ascii _ _ _ 1 0 [] [] _ _ rfl (by decide)⟩

/-! ### The ledger -/

end QilingOs
