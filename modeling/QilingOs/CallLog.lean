import QilingOs.Guest
import QilingOs.Ledger
import QilingOs.Stringify

/-!
# Logging an API call

`print_function` writes the line that logs a call of an API hook: the hook's name without a
leading `hook_`, the arguments as `name = value` joined by `, `, the return value behind ` = `
(an int with `#x`, a str as it is) and ` (PASSTHRU)` for a call passed through. At the `DEBUG`
level and above the line starts with the call's address, with `#0{w}x` for `w` the hexadecimal
width of a word and two more, and goes to the debug log; below it the line has no address and
goes to the info log. `update_ellipsis` files the arguments of a variadic function in the
dict of parameters under the names `__qlva_0`, `__qlva_1`, ..., and `print_function` leaves
out every name with that prefix.

At `DEBUG` a line is the line below `DEBUG` behind exactly as many hexadecimal digits as a
word has, which read back as the address (`printFunction_debug`). The arguments
`update_ellipsis` adds to parameters of other names are logged as bare values, in order, after
the named ones (`printFunction_updateEllipsis`).
-/

namespace QilingOs

/-! ### Hexadecimal numerals -/

theorem hexDigits_succ_right (k n : Nat) :
    hexDigits (k + 1) n = hexDigits k (n / 16) ++ [hexDigitChar n] := by
  induction k generalizing n with
  | zero => rw [hexDigits_succ]; simp [hexDigits]
  | succ k ih =>
    rw [hexDigits_succ, ih, hexDigits_succ, Nat.div_div_eq_div_mul, ← Nat.pow_succ']
    rfl

/-- `Nat.toDigits 16 n` is the `L` lowest hexadecimal digits of `n`, for an `L` with
`n < 16 ^ L`. -/
theorem toDigitsCore_eq_hexDigits :
    ∀ fuel n, n < fuel → ∃ L, n < 16 ^ L ∧
      ∀ ds, Nat.toDigitsCore 16 fuel n ds = hexDigits L n ++ ds
  | 0, _, h => absurd h (Nat.not_lt_zero _)
  | fuel + 1, n, h => by
    by_cases h0 : n / 16 = 0
    · refine ⟨1, by omega, fun ds => ?_⟩
      rw [hexDigits_succ]
      simp [Nat.toDigitsCore, h0, hexDigits, hexDigitChar]
    · obtain ⟨L, hL, hds⟩ := toDigitsCore_eq_hexDigits fuel (n / 16) (by omega)
      refine ⟨L + 1, by rw [Nat.pow_succ]; omega, fun ds => ?_⟩
      simp only [Nat.toDigitsCore, h0, if_false, hds, hexDigits_succ_right, List.append_assoc]
      rfl

/-- Zeros before the `L` lowest digits of a number below `16 ^ L` are its higher digits. -/
theorem replicate_zero_hexDigits {L n : Nat} (h : n < 16 ^ L) :
    ∀ z, List.replicate z '0' ++ hexDigits L n = hexDigits (z + L) n
  | 0 => by simp
  | z + 1 => by
    have hz : n / 16 ^ (z + L) = 0 :=
      Nat.div_eq_of_lt (lt_of_lt_of_le h (Nat.pow_le_pow_right (by omega) (by omega)))
    rw [List.replicate_succ, List.cons_append, replicate_zero_hexDigits h z, Nat.add_right_comm,
      hexDigits_succ, hz]
    rfl

/-! ### `print_function` -/

/-- `QlOsUtils.ELLIPSIS_PREF`. -/
def ellipsisPref : List Char := "__qlva_".toList

/-- The value a call returns, as `print_function` is given it. -/
inductive ApiRet where
  | int (n : Int)
  | str (s : List Char)
  deriving DecidableEq, Repr

/-- The log a line goes to. -/
inductive LogLevel where
  | info
  | debug
  deriving DecidableEq, Repr

/-- `f'{n:#x}'`. -/
def hexAlt (n : Int) : List Char :=
  (if n < 0 then ['-'] else []) ++ '0' :: 'x' :: Nat.toDigits 16 n.natAbs

/-- `f'{n:#0{width}x}'` for a nonnegative `n`: `0x` and the digits, with zeros between them up
to `width` characters. -/
def hexAltZeroFill (width n : Nat) : List Char :=
  let digits := Nat.toDigits 16 n
  '0' :: 'x' :: (List.replicate (width - (digits.length + 2)) '0' ++ digits)

/-- `__assign_arg(name, value)` in `print_function`. -/
def assignArg (name value : List Char) : List Char :=
  let name := if ellipsisPref.isPrefixOf name then [] else name
  if name = [] then value else name ++ " = ".toList ++ value

/-- `QlOsUtils.print_function(address, fname, pargs, ret, passthru)` for `ql.archbit` equal to
`archbit`, with `debug` for `ql.verbose >= QL_VERBOSE.DEBUG`: the log the line goes to, and the
line. -/
def printFunction (archbit : Nat) (debug : Bool) (address : Nat) (fname : List Char)
    (pargs : List (List Char × List Char)) (ret : Option ApiRet) (passthru : Bool) :
    LogLevel × List Char :=
  let fname := if "hook_".toList.isPrefixOf fname then fname.drop 5 else fname
  let fargs := ", ".toList.intercalate (pargs.map fun a => assignArg a.1 a.2)
  let ret := ret.map fun
    | .int n => hexAlt n
    | .str s => s
  let fret := match ret with
    | some r => " = ".toList ++ r
    | none => []
  let fpass := if passthru then " (PASSTHRU)".toList else []
  let faddr := if debug then hexAltZeroFill (archbit / 4 + 2) address ++ ": ".toList else []
  (if debug then .debug else .info, faddr ++ fname ++ '(' :: fargs ++ ')' :: fret ++ fpass)

example : printFunction 32 true 0x401000 "hook_CreateFileA".toList
    [("lpFileName".toList, "a.txt".toList), ("__qlva_0".toList, "1".toList)] (some (.int 0))
    false =
      (.debug, "0x00401000: CreateFileA(lpFileName = a.txt, 1) = 0x0".toList) := by decide

/-- `#0{k + 2}x` writes a number below `16 ^ k` with exactly its `k` lowest digits. -/
theorem hexAltZeroFill_of_lt {k n : Nat} (hk : 0 < k) (h : n < 16 ^ k) :
    hexAltZeroFill (k + 2) n = '0' :: 'x' :: hexDigits k n := by
  obtain ⟨L, hL, hds⟩ := toDigitsCore_eq_hexDigits (n + 1) n (Nat.lt_succ_self n)
  have hD : Nat.toDigits 16 n = hexDigits L n := by rw [Nat.toDigits, hds, List.append_nil]
  have hle : L ≤ k := by
    have := Nat.toDigitsCore_length 16 (by omega) (n + 1) n k h hk
    rwa [hds, List.append_nil, length_hexDigits] at this
  rw [hexAltZeroFill, hD, length_hexDigits, replicate_zero_hexDigits hL]
  congr 3
  omega

theorem pow_archbit (arch : QlArch) : 2 ^ arch.archbit = 16 ^ (arch.archbit / 4) := by
  cases arch <;> rfl

theorem archbit_div_four_pos (arch : QlArch) : 0 < arch.archbit / 4 := by
  cases arch <;> decide

/-- At `DEBUG` the line of a call at an address that fits a word is the line below `DEBUG`
behind `0x`, as many hexadecimal digits as a word has, which read back as the address, and
`: `. -/
theorem printFunction_debug (arch : QlArch) (address : Nat) (h : address < 2 ^ arch.archbit)
    (fname : List Char) (pargs : List (List Char × List Char)) (ret : Option ApiRet)
    (passthru : Bool) :
    ∃ digits, printFunction arch.archbit true address fname pargs ret passthru =
        (.debug, '0' :: 'x' :: digits ++ ':' :: ' ' ::
          (printFunction arch.archbit false address fname pargs ret passthru).2) ∧
      digits.length = arch.archbit / 4 ∧ hexNumber 0 digits = some address := by
  rw [pow_archbit] at h
  refine ⟨hexDigits (arch.archbit / 4) address, ?_, length_hexDigits _ _, ?_⟩
  · simp only [printFunction, if_true, Bool.false_eq_true, if_false, List.nil_append,
      hexAltZeroFill_of_lt (archbit_div_four_pos arch) h, List.cons_append, List.append_assoc]
    rfl
  · rw [hexNumber_hexDigits, Nat.mod_eq_of_lt h, Nat.zero_mul, Nat.zero_add]

theorem printFunction_debug_x86 :
    (0x401000 : Nat) < 2 ^ QlArch.x86.archbit ∧
      ∃ digits, printFunction QlArch.x86.archbit true 0x401000 "hook_ExitProcess".toList
          [("uExitCode".toList, "0x0".toList)] none true =
        (.debug, '0' :: 'x' :: digits ++ ':' :: ' ' ::
          (printFunction QlArch.x86.archbit false 0x401000 "hook_ExitProcess".toList
            [("uExitCode".toList, "0x0".toList)] none true).2) ∧
      digits.length = QlArch.x86.archbit / 4 ∧ hexNumber 0 digits = some 0x401000 :=
  ⟨by decide, printFunction_debug .x86 0x401000 (by decide) _ _ _ _⟩

/-! ### `update_ellipsis` -/

/-- `f'{ELLIPSIS_PREF}{i}'`. -/
def ellipsisName (i : Nat) : List Char := ellipsisPref ++ Nat.toDigits 10 i

/-- `d[k] = v` on a dict, the list of its entries in insertion order: the value of `k` replaced
in place, or a new entry at the end. -/
def dictSet {K V : Type} [DecidableEq K] (k : K) (v : V) (d : List (K × V)) : List (K × V) :=
  setdefaultUpdate k v (fun _ => v) d

/-- `QlOsUtils.update_ellipsis(params, args)`: `params.update` with the pairs
`(f'{ELLIPSIS_PREF}{i}', a)` for `i, a in enumerate(args)`, set in turn. -/
def updateEllipsis {V : Type} (params : List (List Char × V)) (args : List V) :
    List (List Char × V) :=
  args.enum.foldl (fun d a => dictSet (ellipsisName a.1) a.2 d) params

example : updateEllipsis [("__qlva_1".toList, 0), ("format".toList, 1)] [7, 8] =
    [("__qlva_1".toList, 8), ("format".toList, 1), ("__qlva_0".toList, 7)] := by decide

theorem digitValue_digitChar {k : Nat} (hk : k < 10) : digitValue (Nat.digitChar k) = k := by
  have h : ∀ k < 10, digitValue (Nat.digitChar k) = k := by decide
  exact h k hk

/-- The decimal digits `Nat.toDigitsCore` writes read back as the number. -/
theorem numeralValue_toDigitsCore :
    ∀ fuel n, n < fuel → ∃ L, ∀ v ds,
      numeralValue v (Nat.toDigitsCore 10 fuel n ds) = numeralValue (v * 10 ^ L + n) ds
  | 0, _, h => absurd h (Nat.not_lt_zero _)
  | fuel + 1, n, h => by
    by_cases h0 : n / 10 = 0
    · refine ⟨1, fun v ds => ?_⟩
      rw [Nat.toDigitsCore, if_pos h0, numeralValue_cons, digitValue_digitChar (by omega)]
      congr 1
      omega
    · obtain ⟨L, hL⟩ := numeralValue_toDigitsCore fuel (n / 10) (by omega)
      refine ⟨L + 1, fun v ds => ?_⟩
      rw [Nat.toDigitsCore, if_neg h0, hL, numeralValue_cons, digitValue_digitChar (by omega)]
      congr 1
      rw [Nat.pow_succ]
      have := Nat.div_add_mod n 10
      ring_nf
      omega

theorem numeralValue_toDigits (n : Nat) : numeralValue 0 (Nat.toDigits 10 n) = n := by
  obtain ⟨L, hL⟩ := numeralValue_toDigitsCore (n + 1) n (Nat.lt_succ_self n)
  simpa [numeralValue] using hL 0 []

theorem ellipsisName_injective : Function.Injective ellipsisName := fun i j h => by
  have hd := List.append_cancel_left h
  rw [← numeralValue_toDigits i, hd, numeralValue_toDigits]

theorem isPrefixOf_ellipsisName (i : Nat) : ellipsisPref.isPrefixOf (ellipsisName i) = true :=
  List.isPrefixOf_iff_prefix.mpr (List.prefix_append _ _)

theorem dictSet_of_not_mem {K V : Type} [DecidableEq K] {k : K} (v : V) :
    ∀ d : List (K × V), k ∉ d.map Prod.fst → dictSet k v d = d ++ [(k, v)]
  | [], _ => rfl
  | (k', v') :: d, h => by
    have hk : k' ≠ k := fun e => h (e ▸ List.mem_cons_self _ _)
    rw [dictSet, setdefaultUpdate, if_neg hk, ← dictSet,
      dictSet_of_not_mem v d fun h' => h (List.mem_cons_of_mem _ h')]
    rfl

/-- Setting keys a dict does not have, each once, appends their entries in order. -/
theorem foldl_dictSet_of_fresh {K V : Type} [DecidableEq K] :
    ∀ (es d : List (K × V)), (es.map Prod.fst).Nodup →
      (∀ e ∈ es, e.1 ∉ d.map Prod.fst) → es.foldl (fun d e => dictSet e.1 e.2 d) d = d ++ es
  | [], d, _, _ => by simp
  | e :: es, d, hnd, hfresh => by
    rw [List.map_cons, List.nodup_cons] at hnd
    have hfresh' : ∀ e' ∈ es, e'.1 ∉ (d ++ [e]).map Prod.fst := fun e' he' => by
      have hne : e'.1 ≠ e.1 := fun h => hnd.1 (h ▸ List.mem_map_of_mem _ he')
      simpa [hne] using hfresh e' (List.mem_cons_of_mem _ he')
    rw [List.foldl_cons, dictSet_of_not_mem e.2 d (hfresh e (List.mem_cons_self _ _)),
      foldl_dictSet_of_fresh es _ hnd.2 hfresh', List.append_assoc]
    rfl

/-- On parameters none of whose names starts with `__qlva_`, `update_ellipsis` appends the
arguments under the names `__qlva_0`, `__qlva_1`, ... in order. -/
theorem updateEllipsis_of_fresh {V : Type} (params : List (List Char × V))
    (hparams : ∀ e ∈ params, ellipsisPref.isPrefixOf e.1 = false) (args : List V) :
    updateEllipsis params args = params ++ args.enum.map fun a => (ellipsisName a.1, a.2) := by
  rw [updateEllipsis, ← foldl_dictSet_of_fresh, List.foldl_map]
  · have hfst : (Prod.fst ∘ fun a : Nat × V => (ellipsisName a.1, a.2)) =
        ellipsisName ∘ Prod.fst := rfl
    rw [List.map_map, hfst, ← List.map_map, List.enum_map_fst]
    exact (List.nodup_range _).map ellipsisName_injective
  · intro e he hmem
    obtain ⟨a, -, rfl⟩ := List.mem_map.mp he
    obtain ⟨p, hp, hpe⟩ := List.mem_map.mp hmem
    have := hparams p hp
    rw [hpe, isPrefixOf_ellipsisName] at this
    exact Bool.noConfusion this

theorem assignArg_ellipsisName (i : Nat) (value : List Char) :
    assignArg (ellipsisName i) value = value := by
  simp [assignArg, isPrefixOf_ellipsisName]

theorem assignArg_nil (value : List Char) : assignArg [] value = value := by
  simp [assignArg]

/-- `print_function` reads the arguments only through `__assign_arg`. -/
theorem printFunction_congr_pargs {pargs pargs' : List (List Char × List Char)}
    (h : pargs.map (fun a => assignArg a.1 a.2) = pargs'.map fun a => assignArg a.1 a.2)
    (archbit : Nat) (debug : Bool) (address : Nat) (fname : List Char) (ret : Option ApiRet)
    (passthru : Bool) :
    printFunction archbit debug address fname pargs ret passthru =
      printFunction archbit debug address fname pargs' ret passthru := by
  simp only [printFunction, h]

/-- Logged after `update_ellipsis`, with each value written by `fmt`, parameters none of whose
names starts with `__qlva_` are logged as they are, and after them the variadic arguments, in
order, each as its bare value. -/
theorem printFunction_updateEllipsis {V : Type} (fmt : V → List Char)
    (params : List (List Char × V))
    (hparams : ∀ e ∈ params, ellipsisPref.isPrefixOf e.1 = false) (args : List V)
    (archbit : Nat) (debug : Bool) (address : Nat) (fname : List Char) (ret : Option ApiRet)
    (passthru : Bool) :
    printFunction archbit debug address fname
        ((updateEllipsis params args).map fun e => (e.1, fmt e.2)) ret passthru =
      printFunction archbit debug address fname
        (params.map (fun e => (e.1, fmt e.2)) ++ args.map fun a => ([], fmt a)) ret passthru := by
  refine printFunction_congr_pargs ?_ archbit debug address fname ret passthru
  rw [updateEllipsis_of_fresh params hparams]
  simp only [List.map_append, List.map_map]
  congr 1
  conv_rhs => rw [← List.enum_map_snd args, List.map_map]
  exact List.map_congr_left fun a _ => by
    simp only [Function.comp, assignArg_ellipsisName, assignArg_nil]

theorem printFunction_updateEllipsis_printf :
    (∀ e ∈ [("format".toList, 0x2000)], ellipsisPref.isPrefixOf e.1 = false) ∧
      printFunction 32 false 0x1000 "hook_printf".toList
          ((updateEllipsis [("format".toList, 0x2000)] [5, 6]).map fun e =>
            (e.1, Nat.toDigits 10 e.2)) none false =
        printFunction 32 false 0x1000 "hook_printf".toList
          ([("format".toList, 0x2000)].map (fun e => (e.1, Nat.toDigits 10 e.2)) ++
            [5, 6].map fun a => ([], Nat.toDigits 10 a)) none false :=
  ⟨by decide, printFunction_updateEllipsis _ _ (by decide) _ _ _ _ _ _ _⟩

end QilingOs
