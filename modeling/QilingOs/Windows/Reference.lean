import QilingOs.Windows.Request

/-!
# A reference instance

The results on requests hold for every layout and every heap. To run a request on a concrete
guest, this module gives one instance of each: layouts that store the fields the model has in
a fixed order, each little-endian in its own width (a pointer takes the word size), and a bump
heap, which hands out consecutive blocks from an address that only grows. The layouts are not
the kernel's: nothing here depends on where a field sits. `completeIrp` is a dispatch routine
that completes the IRP it is handed, with a reply in its system buffer.
-/

namespace QilingOs

/-! ### Fields -/

/-- The bytes of the fields `vs`, each little-endian in the width `ws` gives it. -/
def packLe : List Nat → List Nat → List UInt8
  | w :: ws, v :: vs => leBytes w v ++ packLe ws vs
  | _, _ => []

/-- The fields of widths `ws` at the start of `bs`. -/
def unpackLe : List Nat → List UInt8 → List Nat
  | [], _ => []
  | w :: ws, bs => ofLeBytes (bs.take w) :: unpackLe ws (bs.drop w)

theorem length_packLe : ∀ (ws vs : List Nat), vs.length = ws.length → (packLe ws vs).length = ws.sum
  | [], [], _ => rfl
  | w :: ws, v :: vs, h => by
    simp only [packLe, List.length_append, length_leBytes, List.sum_cons,
      length_packLe ws vs (Nat.succ.inj h)]

/-- Fields that fit their widths unpack to themselves. -/
theorem unpackLe_packLe :
  ∀ (ws vs : List Nat), List.Forall₂ (fun w v => v < 256 ^ w) ws vs → unpackLe ws (packLe ws vs) = vs
  | [], [], _ => rfl
  | w :: ws, v :: vs, .cons hv h => by
    rw [packLe, unpackLe, List.take_left' (length_leBytes w v), List.drop_left' (length_leBytes w v),
      ofLeBytes_leBytes, Nat.mod_eq_of_lt hv, unpackLe_packLe ws vs h]

/-- A structure stored as the fields `toFields` gives it, of widths `ws`. -/
def Codec.ofFields {α : Type} {Fits : α → Prop} (ws : List Nat) (toFields : α → List Nat)
    (ofFields : List Nat → α) (hlen : ∀ s, (toFields s).length = ws.length)
    (hfit : ∀ s, Fits s → List.Forall₂ (fun w v => v < 256 ^ w) ws (toFields s))
    (hinv : ∀ s, ofFields (toFields s) = s) : Codec α Fits where
  size := ws.sum
  encode s := packLe ws (toFields s)
  decode bs := ofFields (unpackLe ws bs)
  length_encode s := length_packLe ws _ (hlen s)
  decode_encode s h := by simp only [unpackLe_packLe ws _ (hfit s h), hinv]

/-! ### Layouts -/

/-- The width of a pointer in bytes. -/
def WordSize.bytes : WordSize → Nat
  | .w32 => 4
  | .w64 => 8

theorem WordSize.pow_bytes (w : WordSize) : 256 ^ w.bytes = 2 ^ w.bits := by
  cases w <;> rfl

/-- A field of zeros fits any width. -/
theorem zero_lt_pow_width (n : Nat) : 0 < 256 ^ n := Nat.pow_pos (by decide)

/-- The reference layouts of word size `w`. -/
def refLayout (w : WordSize) : Layout w where
  irp := Codec.ofFields [w.bytes, w.bytes, w.bytes, w.bytes, 4, w.bytes]
    (fun s => [s.MdlAddress, s.SystemBuffer, s.UserBuffer, s.irpstack, s.Status.toNat, s.Information])
    (fun vs => ⟨vs.getD 0 0, vs.getD 1 0, vs.getD 2 0, vs.getD 3 0, BitVec.ofNat 32 (vs.getD 4 0),
      vs.getD 5 0⟩)
    (fun _ => rfl)
    (fun s ⟨h₁, h₂, h₃, h₄, h₅⟩ => by
      rw [← w.pow_bytes] at h₁ h₂ h₃ h₄ h₅
      exact .cons h₁ (.cons h₂ (.cons h₃ (.cons h₄ (.cons s.Status.isLt (.cons h₅ .nil))))))
    (fun s => by simp)
  stackWrite := Codec.ofFields [1, 4, 4, 4, w.bytes]
    (fun s => [s.MajorFunction.toNat, s.Length.toNat, 0, 0, 0])
    (fun vs => ⟨BitVec.ofNat 8 (vs.getD 0 0), BitVec.ofNat 32 (vs.getD 1 0)⟩)
    (fun _ => rfl)
    (fun s _ => .cons s.MajorFunction.isLt (.cons s.Length.isLt (.cons (zero_lt_pow_width _)
      (.cons (zero_lt_pow_width _) (.cons (zero_lt_pow_width _) .nil)))))
    (fun s => by simp)
  stackDeviceIoControl := Codec.ofFields [1, 4, 4, 4, w.bytes]
    (fun s => [s.MajorFunction.toNat, s.OutputBufferLength.toNat, s.InputBufferLength.toNat,
      s.IoControlCode.toNat, s.Type3InputBuffer])
    (fun vs => ⟨BitVec.ofNat 8 (vs.getD 0 0), BitVec.ofNat 32 (vs.getD 1 0),
      BitVec.ofNat 32 (vs.getD 2 0), BitVec.ofNat 32 (vs.getD 3 0), vs.getD 4 0⟩)
    (fun _ => rfl)
    (fun s h => .cons s.MajorFunction.isLt (.cons s.OutputBufferLength.isLt
      (.cons s.InputBufferLength.isLt (.cons s.IoControlCode.isLt (.cons (w.pow_bytes ▸ h) .nil)))))
    (fun s => by simp)
  size_stack := rfl
  mdl := Codec.ofFields [w.bytes, w.bytes, 4, 4]
    (fun s => [s.MappedSystemVa, s.StartVa, s.ByteOffset.toNat, s.ByteCount.toNat])
    (fun vs => ⟨vs.getD 0 0, vs.getD 1 0, BitVec.ofNat 32 (vs.getD 2 0), BitVec.ofNat 32 (vs.getD 3 0)⟩)
    (fun _ => rfl)
    (fun s ⟨h₁, h₂⟩ => .cons (w.pow_bytes ▸ h₁) (.cons (w.pow_bytes ▸ h₂)
      (.cons s.ByteOffset.isLt (.cons s.ByteCount.isLt .nil))))
    (fun s => by simp)
  deviceObject := Codec.ofFields [4] (fun s => [s.Flags.toNat]) (fun vs => ⟨BitVec.ofNat 32 (vs.getD 0 0)⟩)
    (fun _ => rfl) (fun s _ => .cons s.Flags.isLt .nil) (fun s => by simp)

/-! ### A heap and a guest -/

/-- A heap that allocates upwards from `next` and never reuses an address. -/
structure BumpHeap where
  next : Nat
  live : List Nat
  deriving DecidableEq, Repr

/-- The bump heap as `ql.os.heap`. -/
def bumpHeap : QlHeap BumpHeap where
  alloc h n := (h.next, ⟨h.next + n, h.next :: h.live⟩)
  free h a := { h with live := h.live.erase a }
  live h := h.live
  live_alloc _ _ := rfl
  live_free h a := (Multiset.coe_erase h.live a).symm

/-- A Windows guest of architecture `a` with the reference layouts and the bump heap, whose
driver has its device object at `device` and its dispatch routines at `entry`; each routine
returns at once. -/
def refWindows (a : QlArch) (entry : Nat → Nat) (device : Nat) : QlWindows BumpHeap where
  archtype := a
  ostype := .windows
  MajorFunction := entry
  DeviceObject := device
  layout := refLayout
  heap := bumpHeap
  run _ g := (g, none)
  verifyRet _ _ := true

/-- Zeroed memory with a device object of the given flags at `device`, the addresses below
`0x10000` mapped, and an empty heap from `0x1000`. -/
def refGuest (device : Nat) (flags : BitVec 32) : Guest BumpHeap :=
  ⟨Mem.write (fun _ => 0) device (leBytes 4 flags.toNat), fun a => decide (a < 0x10000),
    ⟨0x1000, []⟩, []⟩

/-- A dispatch routine under the reference layouts of word size `w`: it writes `reply` to the
system buffer of the IRP it is passed (its second parameter), completes the IRP with `status`
and `information`, and returns. -/
def completeIrp {H : Type} (w : WordSize) (status : BitVec 32) (information : Nat)
    (reply : List UInt8) (g : Guest H) : Guest H :=
  let L := refLayout w
  let irp_addr := g.params.getD 1 0
  let irp := L.irp.decode (g.mem.read irp_addr L.irp.size)
  let mem := g.mem.write irp.SystemBuffer reply
  { g with
    mem := mem.write irp_addr (L.irp.encode { irp with Status := status, Information := information }) }

end QilingOs
