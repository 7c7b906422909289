import QilingOs.Guest

/-!
# Kernel structures

The device requests build three kernel structures in guest memory, `IRP`,
`IO_STACK_LOCATION` and `MDL`, and read a fourth, `DEVICE_OBJECT`; each has a 32-bit and a
64-bit layout. The records here hold the fields the code sets or reads, under the names of the
ctypes fields: `AssociatedIrp.SystemBuffer` is `SystemBuffer`, and `IoStatus.Status` and
`IoStatus.Information` are `Status` and `Information`. Pointers are guest addresses, the
`ULONG` fields and `NTSTATUS` are 32-bit words, and `MajorFunction` is a byte. Every other field
of the structures stays zero, as ctypes constructs them.

A layout is what the code uses of a ctypes structure: its size (`ctypes.sizeof`), its bytes
(`bytes(s)`) and the structure over given bytes (`from_buffer`). The bytes of a structure have
its size, and decode back to it when its pointers fit the word size. `Parameters` of
`IO_STACK_LOCATION` is a union of which the requests use two members, so a stack location has
two views of one size. The layouts are the kernel ABI's, and every result holds for every
layout.
-/

namespace QilingOs

/-- The word size of a structure layout. -/
inductive WordSize where
  | w32
  | w64
  deriving DecidableEq, Repr

/-- The width of a pointer of the layout, in bits. -/
def WordSize.bits : WordSize → Nat
  | .w32 => 32
  | .w64 => 64

/-- The layouts of `IRP`, `IO_STACK_LOCATION` and `MDL` the requests use: the 64-bit ones
exactly when `ql.archtype == QL_ARCH.X8664`. -/
def QlArch.structWord (a : QlArch) : WordSize :=
  if a = .x8664 then .w64 else .w32

/-- The layout of `DEVICE_OBJECT` `io_Write` reads: the 32-bit one exactly when
`ql.archbit == 32`. -/
def QlArch.deviceWord (a : QlArch) : WordSize :=
  if a.archbit = 32 then .w32 else .w64

/-- The two choices of layout agree on every architecture but `arm64` and `a8086`. -/
theorem QlArch.structWord_eq_deviceWord_iff (a : QlArch) :
  a.structWord = a.deviceWord ↔ a ≠ .arm64 ∧ a ≠ .a8086
  := by
  cases a <;> decide

/-! ### Constants of the WDK -/

/-- `IRP_MJ_WRITE`. -/
def IRP_MJ_WRITE : Nat := 0x04

/-- `IRP_MJ_DEVICE_CONTROL`. -/
def IRP_MJ_DEVICE_CONTROL : Nat := 0x0e

/-- `DO_BUFFERED_IO`. -/
def DO_BUFFERED_IO : BitVec 32 := 0x00000004

/-- `DO_DIRECT_IO`. -/
def DO_DIRECT_IO : BitVec 32 := 0x00000010

/-- `METHOD_BUFFERED`. -/
def METHOD_BUFFERED : Nat := 0

/-- `METHOD_IN_DIRECT`. -/
def METHOD_IN_DIRECT : Nat := 1

/-- `METHOD_OUT_DIRECT`. -/
def METHOD_OUT_DIRECT : Nat := 2

/-- `METHOD_NEITHER`. -/
def METHOD_NEITHER : Nat := 3

/-! ### Records -/

/-- The fields of `IRP` the requests set or read. -/
structure Irp where
  MdlAddress : Nat
  SystemBuffer : Nat
  UserBuffer : Nat
  irpstack : Nat
  Status : BitVec 32
  Information : Nat
  deriving DecidableEq, Repr

/-- `IRP32()` or `IRP64()`: every field zero. -/
def Irp.empty : Irp :=
  { MdlAddress := 0, SystemBuffer := 0, UserBuffer := 0, irpstack := 0, Status := 0,
    Information := 0 }

/-- The pointer-sized fields of the IRP fit the word size. -/
def Irp.Fits (w : WordSize) (irp : Irp) : Prop :=
  irp.MdlAddress < 2 ^ w.bits ∧ irp.SystemBuffer < 2 ^ w.bits ∧ irp.UserBuffer < 2 ^ w.bits ∧
    irp.irpstack < 2 ^ w.bits ∧ irp.Information < 2 ^ w.bits

/-- `IO_STACK_LOCATION` through `Parameters.Write`. -/
structure IoStackWrite where
  MajorFunction : BitVec 8
  Length : BitVec 32
  deriving DecidableEq, Repr

/-- `IO_STACK_LOCATION` through `Parameters.DeviceIoControl`. -/
structure IoStackDeviceIoControl where
  MajorFunction : BitVec 8
  OutputBufferLength : BitVec 32
  InputBufferLength : BitVec 32
  IoControlCode : BitVec 32
  Type3InputBuffer : Nat
  deriving DecidableEq, Repr

/-- `IO_STACK_LOCATION32()` or `IO_STACK_LOCATION64()`, seen through `DeviceIoControl`. -/
def IoStackDeviceIoControl.empty : IoStackDeviceIoControl :=
  { MajorFunction := 0, OutputBufferLength := 0, InputBufferLength := 0, IoControlCode := 0,
    Type3InputBuffer := 0 }

/-- `Type3InputBuffer` fits the word size. -/
def IoStackDeviceIoControl.Fits (w : WordSize) (s : IoStackDeviceIoControl) : Prop :=
  s.Type3InputBuffer < 2 ^ w.bits

/-- The fields of `MDL` `build_mdl` sets. -/
structure Mdl where
  MappedSystemVa : Nat
  StartVa : Nat
  ByteOffset : BitVec 32
  ByteCount : BitVec 32
  deriving DecidableEq, Repr

/-- The pointers of the MDL fit the word size. -/
def Mdl.Fits (w : WordSize) (mdl : Mdl) : Prop :=
  mdl.MappedSystemVa < 2 ^ w.bits ∧ mdl.StartVa < 2 ^ w.bits

/-- The field of `DEVICE_OBJECT` `io_Write` reads. -/
structure DeviceObject where
  Flags : BitVec 32
  deriving DecidableEq, Repr

/-! ### Layouts -/

/-- A ctypes structure as the code uses it: `ctypes.sizeof`, `bytes(s)` and `from_buffer`. -/
structure Codec (α : Type) (Fits : α → Prop) where
  size : Nat
  encode : α → List UInt8
  decode : List UInt8 → α
  length_encode : ∀ s, (encode s).length = size
  decode_encode : ∀ s, Fits s → decode (encode s) = s

attribute [simp] Codec.length_encode

/-- The layouts of one word size. -/
structure Layout (w : WordSize) where
  irp : Codec Irp (Irp.Fits w)
  stackWrite : Codec IoStackWrite fun _ => True
  stackDeviceIoControl : Codec IoStackDeviceIoControl (IoStackDeviceIoControl.Fits w)
  size_stack : stackWrite.size = stackDeviceIoControl.size
  mdl : Codec Mdl (Mdl.Fits w)
  deviceObject : Codec DeviceObject fun _ => True

end QilingOs
