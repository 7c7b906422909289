import QilingOs.Guest

/-!
# `read_guid`

`read_guid(address)` reads the 16 bytes of a `GUID` at `address` and makes them a
`uuid.UUID` with `UUID(bytes_le=...)`. In guest memory a `GUID` is the little-endian
`Data1` (4 bytes), `Data2` and `Data3` (2 bytes each), and the 8 bytes of `Data4`;
`bytes_le` is that order, and `UUID` swaps the bytes of the first three fields into the
big-endian order of its 128-bit integer (`swapFields`), which it reads back out as its fields.

The UUID `read_guid` makes loses nothing: its `bytes_le` are the 16 bytes read
(`bytesLe_readGuid`). Its fields are the `GUID`'s: `time_low` is `Data1`, `time_mid` is
`Data2`, `time_hi_version` is `Data3`, `clock_seq_hi_variant` and `clock_seq_low` are the
first two bytes of `Data4`, and `node` is the other six, big-endian (`fields_readGuid`).
-/

namespace QilingOs

/-! ### Big-endian numbers -/

/-- `int.from_bytes(bs, 'big')`. -/
def ofBeBytes (bs : List UInt8) : Nat :=
  bs.foldl (fun n b => n * 256 + b.toNat) 0

/-- `n.to_bytes(w, 'big')` for an `n` below `256 ^ w`. -/
def toBeBytes (w n : Nat) : List UInt8 :=
  (leBytes w n).reverse

theorem foldl_ofBeBytes (bs : List UInt8) :
    ∀ n, bs.foldl (fun n b => n * 256 + b.toNat) n = n * 256 ^ bs.length + ofBeBytes bs := by
  induction bs with
  | nil => intro n; simp [ofBeBytes]
  | cons b bs ih =>
    intro n
    have hcons : ofBeBytes (b :: bs) = b.toNat * 256 ^ bs.length + ofBeBytes bs := by
      rw [ofBeBytes, List.foldl_cons, ih]
      ring
    rw [List.foldl_cons, ih, hcons, List.length_cons, Nat.pow_succ]
    ring

theorem ofBeBytes_append (xs ys : List UInt8) :
    ofBeBytes (xs ++ ys) = ofBeBytes xs * 256 ^ ys.length + ofBeBytes ys := by
  rw [ofBeBytes, List.foldl_append, foldl_ofBeBytes]
  rfl

theorem ofBeBytes_reverse (bs : List UInt8) : ofBeBytes bs.reverse = ofLeBytes bs := by
  induction bs with
  | nil => rfl
  | cons b bs ih =>
    rw [List.reverse_cons, ofBeBytes_append, ih, ofLeBytes]
    simp [ofBeBytes]
    ring

theorem ofLeBytes_lt (bs : List UInt8) : ofLeBytes bs < 256 ^ bs.length := by
  induction bs with
  | nil => simp [ofLeBytes]
  | cons b bs ih =>
    rw [ofLeBytes, List.length_cons, Nat.pow_succ]
    have := b.toNat_lt
    omega

theorem ofBeBytes_lt (bs : List UInt8) : ofBeBytes bs < 256 ^ bs.length := by
  have h := ofLeBytes_lt bs.reverse
  rwa [← ofBeBytes_reverse, List.reverse_reverse, List.length_reverse] at h

theorem leBytes_ofLeBytes (bs : List UInt8) : leBytes bs.length (ofLeBytes bs) = bs := by
  induction bs with
  | nil => rfl
  | cons b bs ih =>
    have hmod : (b.toNat + 256 * ofLeBytes bs) % 256 = b.toNat := by have := b.toNat_lt; omega
    have hdiv : (b.toNat + 256 * ofLeBytes bs) / 256 = ofLeBytes bs := by
      have := b.toNat_lt; omega
    rw [List.length_cons, leBytes, ofLeBytes, hmod, hdiv, ih]
    congr
    exact UInt8.eq_of_val_eq (Fin.ext (UInt8.toNat_ofNat_of_lt b.toNat_lt))

theorem toBeBytes_ofBeBytes (bs : List UInt8) : toBeBytes bs.length (ofBeBytes bs) = bs := by
  have h := leBytes_ofLeBytes bs.reverse
  rw [← ofBeBytes_reverse, List.reverse_reverse, List.length_reverse] at h
  rw [toBeBytes, h, List.reverse_reverse]

/-! ### `uuid.UUID` -/

/-- `bytes_le[4-1::-1] + bytes_le[6-1:4-1:-1] + bytes_le[8-1:6-1:-1] + bytes_le[8:]`: the bytes
of the first three fields reversed, which `UUID` does to make `bytes` of `bytes_le` and back. -/
def swapFields (b : List UInt8) : List UInt8 :=
  (b.take 4).reverse ++ ((b.drop 4).take 2).reverse ++ ((b.drop 6).take 2).reverse ++ b.drop 8

/-- A `uuid.UUID`: its 128-bit integer. -/
structure Uuid where
  int : Nat
  int_lt : int < 2 ^ 128

theorem length_swapFields (b : List UInt8) (h : 8 ≤ b.length) :
    (swapFields b).length = b.length := by
  simp [swapFields]
  omega

/-- `UUID(bytes_le=b)` for 16 bytes `b`; on any other length it raises `ValueError`. -/
def Uuid.ofBytesLe (b : List UInt8) (h : b.length = 16) : Uuid where
  int := ofBeBytes (swapFields b)
  int_lt := by
    have := ofBeBytes_lt (swapFields b)
    rwa [length_swapFields b (by omega), h] at this

/-- `UUID.bytes`: `self.int.to_bytes(16, 'big')`. -/
def Uuid.bytes (u : Uuid) : List UInt8 := toBeBytes 16 u.int

/-- `UUID.bytes_le`. -/
def Uuid.bytesLe (u : Uuid) : List UInt8 := swapFields u.bytes

/-- `UUID.fields`: `time_low`, `time_mid`, `time_hi_version`, `clock_seq_hi_variant`,
`clock_seq_low` and `node`. -/
def Uuid.fields (u : Uuid) : Nat × Nat × Nat × Nat × Nat × Nat :=
  (u.int >>> 96, (u.int >>> 80) &&& 0xffff, (u.int >>> 64) &&& 0xffff,
    (u.int >>> 56) &&& 0xff, (u.int >>> 48) &&& 0xff, u.int &&& 0xffffffffffff)

/-- `QlOsUtils.read_guid(address)`. -/
def readGuid (m : Mem) (address : Nat) : Uuid :=
  Uuid.ofBytesLe (m.read address 16) (Mem.length_read m address 16)

example :
    (readGuid (fun a => if a = 0x18 then 0xC0 else if a = 0x1F then 0x46 else 0) 0x10).fields =
      (0, 0, 0, 0xC0, 0, 0x46) := by decide

/-! ### What `read_guid` reads -/

theorem swapFields_append {x y z : List UInt8} (hx : x.length = 4) (hy : y.length = 2)
    (hz : z.length = 2) (w : List UInt8) :
    swapFields (x ++ y ++ z ++ w) = x.reverse ++ y.reverse ++ z.reverse ++ w := by
  have h4 : (x ++ y ++ z ++ w).drop 4 = y ++ z ++ w := by
    simp only [List.append_assoc, List.drop_left' hx]
  have h6 : (x ++ y ++ z ++ w).drop 6 = z ++ w := by
    rw [← List.drop_drop 2 4, h4, List.append_assoc, List.drop_left' hy]
  have h8 : (x ++ y ++ z ++ w).drop 8 = w := by
    rw [← List.drop_drop 2 6, h6, List.drop_left' hz]
  simp only [swapFields, h4, h6, h8]
  simp only [List.append_assoc, List.take_left' hx, List.take_left' hy, List.take_left' hz]

/-- The 16 bytes of a `GUID`: `Data1`, `Data2`, `Data3`, and `Data4` as two bytes and six. -/
theorem Mem.read_guid (m : Mem) (address : Nat) :
    m.read address 16 = m.read address 4 ++ m.read (address + 4) 2 ++ m.read (address + 6) 2 ++
      (m.read (address + 8) 1 ++ m.read (address + 9) 1 ++ m.read (address + 10) 6) := by
  simp only [show 16 = 4 + 2 + 2 + (1 + 1 + 6) from rfl, Mem.read_add, List.append_assoc,
    Nat.add_assoc]

theorem bytes_readGuid (m : Mem) (address : Nat) :
    (readGuid m address).bytes = swapFields (m.read address 16) := by
  have h := toBeBytes_ofBeBytes (swapFields (m.read address 16))
  rwa [length_swapFields _ (by simp), Mem.length_read] at h

/-- `read_guid` loses nothing: the `bytes_le` of the UUID it makes are the 16 bytes it read. -/
theorem bytesLe_readGuid (m : Mem) (address : Nat) :
    (readGuid m address).bytesLe = m.read address 16 := by
  rw [Uuid.bytesLe, bytes_readGuid, Mem.read_guid, swapFields_append (by simp) (by simp) (by simp),
    swapFields_append (by simp) (by simp) (by simp), List.reverse_reverse, List.reverse_reverse,
    List.reverse_reverse]

theorem ofBeBytes_read_one (m : Mem) (address : Nat) :
    ofBeBytes (m.read address 1) = (m address).toNat := by
  show 0 * 256 + (m (address + 0)).toNat = _
  simp

theorem int_readGuid (m : Mem) (address : Nat) :
    (readGuid m address).int = ofLeBytes (m.read address 4) * 2 ^ 96 +
      ofLeBytes (m.read (address + 4) 2) * 2 ^ 80 + ofLeBytes (m.read (address + 6) 2) * 2 ^ 64 +
      (m (address + 8)).toNat * 2 ^ 56 + (m (address + 9)).toNat * 2 ^ 48 +
      ofBeBytes (m.read (address + 10) 6) := by
  show ofBeBytes (swapFields (m.read address 16)) = _
  rw [Mem.read_guid, swapFields_append (by simp) (by simp) (by simp)]
  simp only [ofBeBytes_append, ofBeBytes_reverse, List.length_append, List.length_reverse,
    Mem.length_read]
  rw [ofBeBytes_read_one, ofBeBytes_read_one]
  ring

/-- The fields of the UUID `read_guid` makes are the fields of the `GUID` it read: `time_low`
is `Data1`, `time_mid` is `Data2` and `time_hi_version` is `Data3`, each read little-endian,
`clock_seq_hi_variant` and `clock_seq_low` are the first two bytes of `Data4`, and `node` is
its other six, read big-endian. -/
theorem fields_readGuid (m : Mem) (address : Nat) :
    (readGuid m address).fields =
      (ofLeBytes (m.read address 4), ofLeBytes (m.read (address + 4) 2),
        ofLeBytes (m.read (address + 6) 2), (m (address + 8)).toNat, (m (address + 9)).toNat,
        ofBeBytes (m.read (address + 10) 6)) := by
  have h1 := ofLeBytes_lt (m.read address 4)
  have h2 := ofLeBytes_lt (m.read (address + 4) 2)
  have h3 := ofLeBytes_lt (m.read (address + 6) 2)
  have h4 := (m (address + 8)).toNat_lt
  have h5 := (m (address + 9)).toNat_lt
  have h6 := ofBeBytes_lt (m.read (address + 10) 6)
  simp only [Mem.length_read] at h1 h2 h3 h6
  simp only [Uuid.fields, int_readGuid, Nat.shiftRight_eq_div_pow,
    show (0xffff : Nat) = 2 ^ 16 - 1 from rfl, show (0xff : Nat) = 2 ^ 8 - 1 from rfl,
    show (0xffffffffffff : Nat) = 2 ^ 48 - 1 from rfl, Nat.and_pow_two_sub_one_eq_mod]
  simp only [Nat.reducePow, Prod.mk.injEq] at *
  omega

end QilingOs
