import QilingOs.Printf.Reference

/-!
# ASCII text in C and in Python

What the two `printf`s share on ASCII text. `Nat.toDigits` writes digits below its base
(`Nat.mem_toDigits`), so the digits C writes are ASCII and neither sign (`cDigits_facts`); C's
padding commutes with the UTF-8 encoding of ASCII text (`encodeUtf8_cPad`); and `read_cstring`,
which decodes one octet at a time, returns the bytes of C's string at the same address, each
decoded alone (`readText_cString`), which encode back to themselves when they are ASCII
(`encodeUtf8_flatMap_pyDecode`).
-/

namespace QilingOs

/-! ### Digits -/

theorem Nat.mem_toDigitsCore {b : Nat} (hb : 0 < b) :
    ∀ (fuel n : Nat) (ds : List Char) (c : Char),
      c ∈ Nat.toDigitsCore b fuel n ds → c ∈ ds ∨ ∃ k < b, c = Nat.digitChar k
  | 0, _, _, _, h => .inl h
  | fuel + 1, n, ds, c, h => by
    have hd : ∀ c ∈ Nat.digitChar (n % b) :: ds, c ∈ ds ∨ ∃ k < b, c = Nat.digitChar k := by
      rintro c (_ | ⟨_, h⟩)
      · exact .inr ⟨n % b, Nat.mod_lt n hb, rfl⟩
      · exact .inl h
    simp only [Nat.toDigitsCore] at h
    split at h
    · exact hd c h
    · rcases Nat.mem_toDigitsCore hb fuel _ _ c h with h | h
      · exact hd c h
      · exact .inr h

/-- Every character of `toDigits` is the digit of a value below the base. -/
theorem Nat.mem_toDigits {b n : Nat} (hb : 0 < b) {c : Char} (h : c ∈ Nat.toDigits b n) :
    ∃ k < b, c = Nat.digitChar k :=
  (Nat.mem_toDigitsCore hb _ n [] c h).resolve_left (List.not_mem_nil c)

theorem Nat.toDigits_ne_nil (b n : Nat) : Nat.toDigits b n ≠ [] := by
  simp only [Nat.toDigits, Nat.toDigitsCore]
  split
  · exact List.cons_ne_nil _ _
  · exact List.ne_nil_of_length_pos (by rw [Nat.toDigitsCore_lens_eq]; omega)

/-- The digits below sixteen are ASCII and neither sign, in either case. -/
theorem digitChar_ascii : ∀ k < 16, ∀ upper : Bool,
    (if upper then (Nat.digitChar k).toUpper else Nat.digitChar k).toNat < 0x80 ∧
    (if upper then (Nat.digitChar k).toUpper else Nat.digitChar k) ≠ '-' ∧
    (if upper then (Nat.digitChar k).toUpper else Nat.digitChar k) ≠ '+' := by
  decide

theorem cDigits_eq (base : Nat) {prec : Option Nat} {n : Nat} (hn : ¬(prec = some 0 ∧ n = 0)) :
  cDigits base prec n =
    List.replicate (prec.getD 0 - (Nat.toDigits base n).length) '0' ++ Nat.toDigits base n
  := by
  have := List.length_pos.mpr (Nat.toDigits_ne_nil base n)
  rw [cDigits, if_neg hn]
  cases prec <;> simp only [Option.getD_none, Option.getD_some]
  rw [Nat.sub_eq_zero_of_le this, Nat.sub_eq_zero_of_le (Nat.zero_le _)]

theorem Conv.base_bounds (v : Conv) : 0 < v.base ∧ v.base ≤ 16 := by
  cases v <;> decide

/-- The digits C writes for an integer are ASCII and neither sign. -/
theorem cDigits_facts (base : Nat) (hb : 0 < base ∧ base ≤ 16) (prec : Option Nat) (n : Nat)
    (upper : Bool) :
    ∀ d ∈ (cDigits base prec n).map (fun d => if upper then d.toUpper else d),
      d.toNat < 0x80 ∧ d ≠ '-' ∧ d ≠ '+' := by
  have hdig : ∀ d ∈ cDigits base prec n, ∃ k < 16, d = Nat.digitChar k := fun d h => by
    unfold cDigits at h
    split_ifs at h
    · exact absurd h (List.not_mem_nil d)
    · rcases List.mem_append.mp h with h | h
      · exact ⟨0, by decide, List.eq_of_mem_replicate h⟩
      · obtain ⟨k, hk, rfl⟩ := Nat.mem_toDigits hb.1 h
        exact ⟨k, by omega, rfl⟩
  intro d hd
  obtain ⟨d', hd', rfl⟩ := List.mem_map.mp hd
  obtain ⟨k, hk, rfl⟩ := hdig d' hd'
  exact digitChar_ascii k hk upper

/-- A word below the sign bit reads as itself. -/
theorem toSigned_of_lt {bits w : Nat} (h : w < 2 ^ (bits - 1)) : toSigned bits w = w := by
  have hw : w < 2 ^ bits := lt_of_lt_of_le h (Nat.pow_le_pow_right (by decide) (Nat.sub_le _ _))
  rw [toSigned, Nat.mod_eq_of_lt hw, if_pos h]

/-! ### Padding -/

/-- Every character of a padded text is a character of its lead or body, or a fill character. -/
theorem mem_cPad {α : Type} {space zero x : α} {left zeroPad : Bool} {width : Nat}
    {lead body : List α} (h : x ∈ cPad space zero left zeroPad width lead body) :
    x ∈ lead ∨ x ∈ body ∨ x = space ∨ x = zero := by
  unfold cPad at h
  split_ifs at h <;> simp only [List.mem_append, List.mem_replicate] at h <;> tauto

/-- With `-`, C's padding does not look at `0`. -/
theorem cPad_left {α : Type} (space zero : α) (zeroPad : Bool) (width : Nat) (lead body : List α) :
    cPad space zero true zeroPad width lead body = cPad space zero true false width lead body := rfl

/-! ### UTF-8 on ASCII text -/

theorem Char.toNat_ofNat_of_lt {n : Nat} (h : n < 0x80) : (Char.ofNat n).toNat = n := by
  have hv : n.isValidChar := Or.inl (by omega)
  simp [Char.ofNat, hv, Char.ofNatAux, Char.toNat, UInt32.toNat]

@[simp]
theorem encodeUtf8_append (s t : List Char) : encodeUtf8 (s ++ t) = encodeUtf8 s ++ encodeUtf8 t :=
  List.flatMap_append _ _ _

theorem encodeUtf8_replicate {c : Char} (h : c.toNat < 0x80) (n : Nat) :
    encodeUtf8 (List.replicate n c) = List.replicate n (asciiByte c) := by
  induction n with
  | zero => rfl
  | succ n ih =>
    rw [List.replicate_succ, encodeUtf8, List.flatMap_cons, ← encodeUtf8, ih, utf8EncodeChar_of_lt h]
    rfl

/-- Encoding ASCII text commutes with C's padding. -/
theorem encodeUtf8_cPad {lead body : List Char} (h : ∀ c ∈ lead ++ body, c.toNat < 0x80)
    (left zeroPad : Bool) (width : Nat) :
  encodeUtf8 (cPad ' ' '0' left zeroPad width lead body) =
    cPad 0x20 0x30 left zeroPad width (encodeUtf8 lead) (encodeUtf8 body)
  := by
  have hl := length_encodeUtf8_of_ascii fun c hc => h c (List.mem_append_left _ hc)
  have hb := length_encodeUtf8_of_ascii fun c hc => h c (List.mem_append_right _ hc)
  unfold cPad
  split_ifs <;> simp only [encodeUtf8_append, encodeUtf8_replicate (by decide : ' '.toNat < 0x80),
    encodeUtf8_replicate (by decide : '0'.toNat < 0x80), hl, hb] <;> rfl

/-- The bytes of an ASCII string, each decoded alone, encode back to themselves. -/
theorem encodeUtf8_flatMap_pyDecode {bs : List UInt8} (h : ∀ b ∈ bs, b.toNat < 0x80) :
    encodeUtf8 (bs.flatMap fun b => pyDecode [b]) = bs ∧
      ∀ c ∈ bs.flatMap (fun b => pyDecode [b]), c.toNat < 0x80 := by
  induction bs with
  | nil => exact ⟨rfl, fun _ h => absurd h (List.not_mem_nil _)⟩
  | cons b bs ih =>
    have hb := h b (List.mem_cons_self _ _)
    have hc : (Char.ofNat b.toNat).toNat = b.toNat := Char.toNat_ofNat_of_lt hb
    obtain ⟨ih₁, ih₂⟩ := ih fun b' h' => h b' (List.mem_cons_of_mem _ h')
    rw [List.flatMap_cons, pyDecode_singleton, if_pos hb]
    refine ⟨?_, fun c hc' => ?_⟩
    · have hb' : UInt8.ofNat b.toNat = b := UInt8.eq_of_val_eq (Fin.ext (UInt8.toNat_ofNat_of_lt b.toNat_lt))
      rw [List.singleton_append, encodeUtf8, List.flatMap_cons, ← encodeUtf8, ih₁,
        utf8EncodeChar_of_lt (by rwa [hc]), List.singleton_append, asciiByte, hc, hb']
    · rcases List.mem_cons.mp hc' with rfl | hc'
      · rwa [hc]
      · exact ih₂ c hc'

/-! ### C strings -/

/-- `read_cstring` one octet at a time reads what C's string at the same address holds, each
octet decoded alone. -/
theorem readString_loop_cString (m : Mem) :
    ∀ (fuel a : Nat) (result : List Char), readString.loop m ['\x00'] fuel a result =
      (cString m a fuel).map fun bs => (result ++ bs.flatMap fun b => pyDecode [b], a + bs.length + 1)
  | 0, _, _ => rfl
  | fuel + 1, a, result => by
    have hread : m.read a ['\x00'].length = [m a] := rfl
    have hnul : pyDecode [m a] = ['\x00'] ↔ m a = 0 := by
      rw [pyDecode_singleton]
      constructor
      · intro h
        split_ifs at h with hlt
        have := congrArg Char.toNat (List.singleton_inj.mp h)
        rw [Char.toNat_ofNat_of_lt hlt] at this
        exact UInt8.eq_of_val_eq (Fin.ext this)
      · rintro h
        rw [h]
        rfl
    simp only [readString.loop, hread, cString]
    by_cases h0 : m a = 0
    · rw [if_pos (hnul.mpr h0), if_pos h0]
      simp
    · rw [if_neg (mt hnul.mp h0), if_neg h0, readString_loop_cString m fuel, Option.map_map]
      congr 1
      funext bs
      simp only [Function.comp, List.flatMap_cons, List.append_assoc, List.length_cons,
        List.length_nil, Prod.mk.injEq, true_and]
      omega

/-- `read_cstring` returns the bytes of C's string at the same address, each decoded alone. -/
theorem readText_cString (m : Mem) (a fuel : Nat) :
    readText m false a fuel = (cString m a fuel).map fun bs => bs.flatMap fun b => pyDecode [b] := by
  simp only [readText, readString, Bool.false_eq_true, if_false, readString_loop_cString,
    Option.map_map, List.nil_append]
  rfl

end QilingOs
