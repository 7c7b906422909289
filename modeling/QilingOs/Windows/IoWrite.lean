import QilingOs.Windows.Reference

/-!
# `io_Write`

`io_Write(in_buffer)` emulates a write request: it reads the device object, allocates an IRP
and its stack location, fills the stack location with `IRP_MJ_WRITE` and the length of the
input, and passes the input the way the device's buffering mode asks: in a system buffer for
`DO_BUFFERED_IO`, through an MDL for `DO_DIRECT_IO`, and as the user buffer otherwise. It then
calls the `WRITE` dispatch routine with the device object and the IRP, reads the IRP back and
frees everything it allocated. A read of unmapped memory, of the device object or of the IRP,
raises out of `io_Write`, and then nothing is freed (`ioWrite_lifecycle`).
-/

namespace QilingOs

variable {H : Type}

/-- What `io_Write` has built when it transfers control to the driver: the request, the IRP's
address, and `alloc_addr`. -/
structure WriteStaged (H : Type) where
  req : Req H
  irp_addr : Nat
  alloc_addr : List Nat

/-- The device object `io_Write` reads, with the layout of `ql.archbit`, from a mapped range:
`ioWrite` raises before anything else when the range is not mapped. -/
def ioWriteDevice (env : QlWindows H) (s : Req H) : DeviceObject × Req H :=
  let D := (env.layout env.archtype.deviceWord).deviceObject
  let (buf, s) := s.load env.DeviceObject D.size
  (D.decode buf, s)

/-- The buffer of a write request, by the device's buffering mode: the IRP with its pointer to
the buffer set, the request after allocating and filling it, and the addresses it appends to
`alloc_addr`. -/
def ioWriteBuffer (env : QlWindows H) (in_buffer : List UInt8) (device_object : DeviceObject)
    (irp : Irp) (s : Req H) : Irp × Req H × List Nat :=
  let L := env.layout env.archtype.structWord
  if device_object.Flags &&& DO_BUFFERED_IO ≠ 0 then
    let (system_buffer_addr, s) := s.alloc env.heap in_buffer.length
    let s := s.write system_buffer_addr in_buffer
    ({ irp with SystemBuffer := system_buffer_addr }, s, [system_buffer_addr])
  else if device_object.Flags &&& DO_DIRECT_IO ≠ 0 then
    let (mdl, s, mapped_address) := buildMdl env s in_buffer.length []
    let (mdl_addr, s) := s.alloc env.heap L.mdl.size
    let s := s.write mdl_addr (L.mdl.encode mdl)
    ({ irp with MdlAddress := mdl_addr }, s, [mapped_address, mdl_addr])
  else
    let (input_buffer_addr, s) := s.alloc env.heap in_buffer.length
    let s := s.write input_buffer_addr in_buffer
    ({ irp with UserBuffer := input_buffer_addr }, s, [input_buffer_addr])

/-- `io_Write` up to the call of the dispatch routine. -/
def ioWriteStage (env : QlWindows H) (in_buffer : List UInt8) (s : Req H) : WriteStaged H :=
  let L := env.layout env.archtype.structWord
  let (device_object, s) := ioWriteDevice env s
  let (irp_addr, s) := s.alloc env.heap L.irp.size
  let (irpstack_addr, s) := s.alloc env.heap L.stackWrite.size
  let irpstack : IoStackWrite :=
    { MajorFunction := BitVec.ofNat 8 IRP_MJ_WRITE, Length := BitVec.ofNat 32 in_buffer.length }
  let s := s.write irpstack_addr (L.stackWrite.encode irpstack)
  let irp := { Irp.empty with irpstack := irpstack_addr }
  let (irp, s, buffers) := ioWriteBuffer env in_buffer device_object irp s
  let s := s.write irp_addr (L.irp.encode irp)
  let s := s.writeParams [env.DeviceObject, irp_addr]
  { req := s, irp_addr, alloc_addr := [irp_addr, irpstack_addr] ++ buffers }

/-- `io_Write(in_buffer)`, from the guest `g`: `(False, None)` when the `WRITE` entry is not
registered, and otherwise `(True, Information)` of the IRP read back after the call. The read of
the device object raises when its range is not mapped, before anything is allocated. -/
def ioWrite (env : QlWindows H) (in_buffer : List UInt8) (g : Guest H) :
    Outcome H (Bool × Option Nat) :=
  if env.ostype = .windows ∧ env.MajorFunction IRP_MJ_WRITE = 0 then .done (false, none) ⟨g, []⟩
  else if g.Mapped env.DeviceObject (env.layout env.archtype.deviceWord).deviceObject.size then
    let st := ioWriteStage env in_buffer ⟨g, []⟩
    let L := env.layout env.archtype.structWord
    st.req.finish env (env.MajorFunction IRP_MJ_WRITE) (fun s => s.read st.irp_addr L.irp.size)
      (fun irp_buffer => (true, some (L.irp.decode irp_buffer).Information)) st.alloc_addr
  else .fatal ⟨UC_ERR_READ_UNMAPPED⟩ ⟨g, []⟩

/-! ### The three buffering modes -/

/-- `io_Write` passes the device object and the IRP to the dispatch routine. -/
theorem ioWriteStage_params (env : QlWindows H) (in_buffer : List UInt8) (s : Req H) :
  (ioWriteStage env in_buffer s).req.guest.params =
    [env.DeviceObject, (ioWriteStage env in_buffer s).irp_addr]
  := rfl

/-- `DO_BUFFERED_IO`: the input goes to a fresh system buffer. -/
theorem ioWriteStage_of_buffered (env : QlWindows H) (in_buffer : List UInt8) (g : Guest H)
    (hb : (ioWriteDevice env ⟨g, []⟩).1.Flags &&& DO_BUFFERED_IO ≠ 0) :
  let L := env.layout env.archtype.structWord
  let st := ioWriteStage env in_buffer ⟨g, []⟩
  ∃ (irp stk sb : Nat) (ws : List (Block × List UInt8)),
    let eStk := L.stackWrite.encode ⟨BitVec.ofNat 8 IRP_MJ_WRITE, BitVec.ofNat 32 in_buffer.length⟩
    let eIrp := L.irp.encode { Irp.empty with irpstack := stk, SystemBuffer := sb }
    ws = [(⟨stk, L.stackWrite.size⟩, eStk), (⟨sb, in_buffer.length⟩, in_buffer),
      (⟨irp, L.irp.size⟩, eIrp)] ∧
    st.irp_addr = irp ∧ st.alloc_addr = [irp, stk, sb] ∧
    st.req.trace = [.read env.DeviceObject (env.layout env.archtype.deviceWord).deviceObject.size,
      .alloc L.irp.size irp, .alloc L.stackWrite.size stk, .write stk eStk,
      .alloc in_buffer.length sb, .write sb in_buffer, .write irp eIrp] ∧
    st.req.guest.mem = g.mem.writeAll (ws.map fun w => (w.1.address, w.2)) ∧
    env.heap.live st.req.guest.heap = sb ::ₘ stk ::ₘ irp ::ₘ env.heap.live g.heap
  := by
  simp only [ioWriteStage, ioWriteBuffer, if_pos hb]
  refine ⟨_, _, _, _, rfl, rfl, rfl, rfl, rfl, ?_⟩
  simp [ioWriteDevice, env.heap.live_alloc]

/-- `DO_DIRECT_IO`: the IRP points to an MDL describing a fresh block of the input's length;
the input is not copied there. -/
theorem ioWriteStage_of_direct (env : QlWindows H) (in_buffer : List UInt8) (g : Guest H)
    (hb : (ioWriteDevice env ⟨g, []⟩).1.Flags &&& DO_BUFFERED_IO = 0)
    (hd : (ioWriteDevice env ⟨g, []⟩).1.Flags &&& DO_DIRECT_IO ≠ 0) :
  let L := env.layout env.archtype.structWord
  let st := ioWriteStage env in_buffer ⟨g, []⟩
  ∃ (irp stk mapped md : Nat) (ws : List (Block × List UInt8)),
    let eStk := L.stackWrite.encode ⟨BitVec.ofNat 8 IRP_MJ_WRITE, BitVec.ofNat 32 in_buffer.length⟩
    let eMdl := L.mdl.encode ⟨mapped, mapped, 0, BitVec.ofNat 32 in_buffer.length⟩
    let eIrp := L.irp.encode { Irp.empty with irpstack := stk, MdlAddress := md }
    ws = [(⟨stk, L.stackWrite.size⟩, eStk), (⟨md, L.mdl.size⟩, eMdl), (⟨irp, L.irp.size⟩, eIrp)] ∧
    st.irp_addr = irp ∧ st.alloc_addr = [irp, stk, mapped, md] ∧
    st.req.trace = [.read env.DeviceObject (env.layout env.archtype.deviceWord).deviceObject.size,
      .alloc L.irp.size irp, .alloc L.stackWrite.size stk, .write stk eStk,
      .alloc in_buffer.length mapped, .alloc L.mdl.size md, .write md eMdl, .write irp eIrp] ∧
    st.req.guest.mem = g.mem.writeAll (ws.map fun w => (w.1.address, w.2)) ∧
    env.heap.live st.req.guest.heap = md ::ₘ mapped ::ₘ stk ::ₘ irp ::ₘ env.heap.live g.heap
  := by
  simp only [ioWriteStage, ioWriteBuffer, hb, ne_eq, not_true_eq_false, if_false, if_pos hd,
    buildMdl]
  refine ⟨_, _, _, _, _, rfl, rfl, rfl, rfl, rfl, ?_⟩
  simp [ioWriteDevice, env.heap.live_alloc]

/-- Neither flag: the input goes to a fresh user buffer. -/
theorem ioWriteStage_of_neither (env : QlWindows H) (in_buffer : List UInt8) (g : Guest H)
    (hb : (ioWriteDevice env ⟨g, []⟩).1.Flags &&& DO_BUFFERED_IO = 0)
    (hd : (ioWriteDevice env ⟨g, []⟩).1.Flags &&& DO_DIRECT_IO = 0) :
  let L := env.layout env.archtype.structWord
  let st := ioWriteStage env in_buffer ⟨g, []⟩
  ∃ (irp stk ub : Nat) (ws : List (Block × List UInt8)),
    let eStk := L.stackWrite.encode ⟨BitVec.ofNat 8 IRP_MJ_WRITE, BitVec.ofNat 32 in_buffer.length⟩
    let eIrp := L.irp.encode { Irp.empty with irpstack := stk, UserBuffer := ub }
    ws = [(⟨stk, L.stackWrite.size⟩, eStk), (⟨ub, in_buffer.length⟩, in_buffer),
      (⟨irp, L.irp.size⟩, eIrp)] ∧
    st.irp_addr = irp ∧ st.alloc_addr = [irp, stk, ub] ∧
    st.req.trace = [.read env.DeviceObject (env.layout env.archtype.deviceWord).deviceObject.size,
      .alloc L.irp.size irp, .alloc L.stackWrite.size stk, .write stk eStk,
      .alloc in_buffer.length ub, .write ub in_buffer, .write irp eIrp] ∧
    st.req.guest.mem = g.mem.writeAll (ws.map fun w => (w.1.address, w.2)) ∧
    env.heap.live st.req.guest.heap = ub ::ₘ stk ::ₘ irp ::ₘ env.heap.live g.heap
  := by
  simp only [ioWriteStage, ioWriteBuffer, hb, hd, ne_eq, not_true_eq_false, if_false]
  refine ⟨_, _, _, _, rfl, rfl, rfl, rfl, rfl, ?_⟩
  simp [ioWriteDevice, env.heap.live_alloc]

/-! ### The request the driver sees -/

/-- A stack location, one more block and an IRP written to pairwise disjoint blocks read back
under the layout. -/
theorem Layout.read_back_write {w : WordSize} (L : Layout w) (m : Mem) {ia sa ba n : Nat}
    {stk : IoStackWrite} {d : List UInt8} {irp : Irp} (hn : d.length ≤ n)
    (hd : [(⟨sa, L.stackWrite.size⟩ : Block), ⟨ba, n⟩, ⟨ia, L.irp.size⟩].Pairwise Block.Disjoint)
    (hfit : irp.Fits w) :
  let ws : List (Block × List UInt8) :=
    [(⟨sa, L.stackWrite.size⟩, L.stackWrite.encode stk), (⟨ba, n⟩, d),
      (⟨ia, L.irp.size⟩, L.irp.encode irp)]
  let m' := m.writeAll (ws.map fun w => (w.1.address, w.2))
  L.irp.decode (m'.read ia L.irp.size) = irp ∧
    L.stackWrite.decode (m'.read sa L.stackWrite.size) = stk ∧ m'.read ba d.length = d
  := by
  intro ws m'
  have hr := @Mem.read_writeAll_blocks m ws hd (by simp [ws, hn])
  simp only [ws, List.forall_mem_cons, Codec.length_encode] at hr
  obtain ⟨hs, hb, hi, -⟩ := hr
  exact ⟨by rw [hi, L.irp.decode_encode _ hfit], by rw [hs, L.stackWrite.decode_encode _ trivial], hb⟩

section Layout

variable (env : QlWindows H) (in_buffer : List UInt8) (g : Guest H)
  (hok : Trace.AllocOk env.archtype.structWord.bits (ioWriteStage env in_buffer ⟨g, []⟩).req.trace)
include hok

/-- Under `DO_BUFFERED_IO` the system buffer holds the input. -/
theorem ioWriteStage_layout_buffered
    (hb : (ioWriteDevice env ⟨g, []⟩).1.Flags &&& DO_BUFFERED_IO ≠ 0) :
  let L := env.layout env.archtype.structWord
  let st := ioWriteStage env in_buffer ⟨g, []⟩
  let m := st.req.guest.mem
  let irp := L.irp.decode (m.read st.irp_addr L.irp.size)
  L.stackWrite.decode (m.read irp.irpstack L.stackWrite.size) =
      ⟨BitVec.ofNat 8 IRP_MJ_WRITE, BitVec.ofNat 32 in_buffer.length⟩ ∧
    m.read irp.SystemBuffer in_buffer.length = in_buffer
  := by
  obtain ⟨ia, sa, ba, ws, hws, hia, -, htr, hm, -⟩ := ioWriteStage_of_buffered env in_buffer g hb
  rw [htr] at hok
  have hfit : Irp.Fits env.archtype.structWord { Irp.empty with irpstack := sa, SystemBuffer := ba } :=
    ⟨Nat.two_pow_pos _, hok.lt_of_allocated (by simp [Event.allocated]), Nat.two_pow_pos _,
      hok.lt_of_allocated (by simp [Event.allocated]), Nat.two_pow_pos _⟩
  obtain ⟨hi, hs, hbuf⟩ := Layout.read_back_write _ g.mem le_rfl
    (hok.pairwise_of_subperm (List.perm_append_singleton (⟨ia, _⟩ : Block) [⟨sa, _⟩, ⟨ba, _⟩]).subperm)
    hfit
  dsimp only
  rw [hia, hm, hws, hi]
  exact ⟨hs, hbuf⟩

/-- Under `DO_DIRECT_IO` alone the IRP points to an MDL for a block of the input's length that
the request allocated, and that block holds what the guest held there before. -/
theorem ioWriteStage_layout_direct
    (hb : (ioWriteDevice env ⟨g, []⟩).1.Flags &&& DO_BUFFERED_IO = 0)
    (hd : (ioWriteDevice env ⟨g, []⟩).1.Flags &&& DO_DIRECT_IO ≠ 0) :
  let L := env.layout env.archtype.structWord
  let st := ioWriteStage env in_buffer ⟨g, []⟩
  let m := st.req.guest.mem
  let irp := L.irp.decode (m.read st.irp_addr L.irp.size)
  let mdl := L.mdl.decode (m.read irp.MdlAddress L.mdl.size)
  L.stackWrite.decode (m.read irp.irpstack L.stackWrite.size) =
      ⟨BitVec.ofNat 8 IRP_MJ_WRITE, BitVec.ofNat 32 in_buffer.length⟩ ∧
    mdl = ⟨mdl.MappedSystemVa, mdl.MappedSystemVa, 0, BitVec.ofNat 32 in_buffer.length⟩ ∧
    Event.alloc in_buffer.length mdl.MappedSystemVa ∈ st.req.trace ∧
    m.read mdl.MappedSystemVa in_buffer.length = g.mem.read mdl.MappedSystemVa in_buffer.length
  := by
  obtain ⟨ia, sa, va, ma, ws, hws, hia, -, htr, hm, -⟩ := ioWriteStage_of_direct env in_buffer g hb hd
  dsimp only
  rw [htr] at hok ⊢
  have hall : ((⟨va, in_buffer.length⟩ : Block) :: ws.map Prod.fst).Pairwise Block.Disjoint := by
    rw [hws]
    exact hok.pairwise_of_subperm
      ((@List.perm_middle Block ⟨va, _⟩ [⟨ia, _⟩, ⟨sa, _⟩] [⟨ma, _⟩]).trans
        ((List.perm_append_singleton _ _).symm.cons _)).symm.subperm
  rw [List.pairwise_cons] at hall
  have hv := @Mem.read_writeAll_of_block_disjoint g.mem ws _
    (fun w hw => hall.1 _ (List.mem_map_of_mem _ hw)) (by simp [hws]) in_buffer.length le_rfl
  have hfit : Irp.Fits env.archtype.structWord { Irp.empty with irpstack := sa, MdlAddress := ma } :=
    ⟨hok.lt_of_allocated (by simp [Event.allocated]), Nat.two_pow_pos _, Nat.two_pow_pos _,
      hok.lt_of_allocated (by simp [Event.allocated]), Nat.two_pow_pos _⟩
  have hmf : Mdl.Fits env.archtype.structWord ⟨va, va, 0, BitVec.ofNat 32 in_buffer.length⟩ :=
    have hva : va < _ := hok.lt_of_allocated (by simp [Event.allocated])
    ⟨hva, hva⟩
  rw [hws] at hall hv
  obtain ⟨hi, hs, hmd⟩ := Layout.read_back_write _ g.mem (Codec.length_encode _ _).le hall.2 hfit
  rw [hia, hm, hws, hi]
  rw [Codec.length_encode] at hmd
  rw [hmd, Codec.decode_encode _ _ hmf]
  exact ⟨hs, rfl, by simp, hv⟩

/-- With neither flag the user buffer holds the input. -/
theorem ioWriteStage_layout_neither
    (hb : (ioWriteDevice env ⟨g, []⟩).1.Flags &&& DO_BUFFERED_IO = 0)
    (hd : (ioWriteDevice env ⟨g, []⟩).1.Flags &&& DO_DIRECT_IO = 0) :
  let L := env.layout env.archtype.structWord
  let st := ioWriteStage env in_buffer ⟨g, []⟩
  let m := st.req.guest.mem
  let irp := L.irp.decode (m.read st.irp_addr L.irp.size)
  L.stackWrite.decode (m.read irp.irpstack L.stackWrite.size) =
      ⟨BitVec.ofNat 8 IRP_MJ_WRITE, BitVec.ofNat 32 in_buffer.length⟩ ∧
    m.read irp.UserBuffer in_buffer.length = in_buffer
  := by
  obtain ⟨ia, sa, ba, ws, hws, hia, -, htr, hm, -⟩ := ioWriteStage_of_neither env in_buffer g hb hd
  rw [htr] at hok
  have hfit : Irp.Fits env.archtype.structWord { Irp.empty with irpstack := sa, UserBuffer := ba } :=
    ⟨Nat.two_pow_pos _, Nat.two_pow_pos _, hok.lt_of_allocated (by simp [Event.allocated]),
      hok.lt_of_allocated (by simp [Event.allocated]), Nat.two_pow_pos _⟩
  obtain ⟨hi, hs, hbuf⟩ := Layout.read_back_write _ g.mem le_rfl
    (hok.pairwise_of_subperm (List.perm_append_singleton (⟨ia, _⟩ : Block) [⟨sa, _⟩, ⟨ba, _⟩]).subperm)
    hfit
  dsimp only
  rw [hia, hm, hws, hi]
  exact ⟨hs, hbuf⟩

end Layout

/-- At the call of the `WRITE` dispatch routine, on every architecture but `arm64` and `a8086`,
the guest memory read with the layouts of `ql.archbit` holds an IRP whose stack location is
`IRP_MJ_WRITE` of the input's length modulo `2 ^ 32` (`Length` is a `ULONG`), and the buffer the
device's flags ask for: the input in the system buffer or the user buffer, or an MDL with
`StartVa = MappedSystemVa`, `ByteOffset` zero and the input's length, describing a block of that
length the request allocated. -/
theorem ioWrite_request_layout (env : QlWindows H) (in_buffer : List UInt8) (g : Guest H)
    (harch : env.archtype ≠ .arm64 ∧ env.archtype ≠ .a8086)
    (hok : Trace.AllocOk env.archtype.deviceWord.bits
      (ioWriteStage env in_buffer ⟨g, []⟩).req.trace) :
  let L := env.layout env.archtype.deviceWord
  let st := ioWriteStage env in_buffer ⟨g, []⟩
  let m := st.req.guest.mem
  let flags := (ioWriteDevice env ⟨g, []⟩).1.Flags
  let irp := L.irp.decode (m.read st.irp_addr L.irp.size)
  let stk := L.stackWrite.decode (m.read irp.irpstack L.stackWrite.size)
  let mdl := L.mdl.decode (m.read irp.MdlAddress L.mdl.size)
  st.req.guest.params = [env.DeviceObject, st.irp_addr] ∧
    stk.MajorFunction.toNat = IRP_MJ_WRITE ∧ stk.Length.toNat = in_buffer.length % 2 ^ 32 ∧
    (flags &&& DO_BUFFERED_IO ≠ 0 → m.read irp.SystemBuffer in_buffer.length = in_buffer) ∧
    (flags &&& DO_BUFFERED_IO = 0 → flags &&& DO_DIRECT_IO ≠ 0 →
      mdl.StartVa = mdl.MappedSystemVa ∧ mdl.ByteOffset = 0 ∧
        mdl.ByteCount.toNat = in_buffer.length % 2 ^ 32 ∧
        Event.alloc in_buffer.length mdl.MappedSystemVa ∈ st.req.trace) ∧
    (flags &&& DO_BUFFERED_IO = 0 → flags &&& DO_DIRECT_IO = 0 →
      m.read irp.UserBuffer in_buffer.length = in_buffer)
  := by
  rw [← (QlArch.structWord_eq_deviceWord_iff _).mpr harch] at hok ⊢
  intro L st m flags irp stk mdl
  have hstk : stk = ⟨BitVec.ofNat 8 IRP_MJ_WRITE, BitVec.ofNat 32 in_buffer.length⟩ := by
    by_cases hb : (ioWriteDevice env ⟨g, []⟩).1.Flags &&& DO_BUFFERED_IO = 0
    · by_cases hd : (ioWriteDevice env ⟨g, []⟩).1.Flags &&& DO_DIRECT_IO = 0
      · exact (ioWriteStage_layout_neither env in_buffer g hok hb hd).1
      · exact (ioWriteStage_layout_direct env in_buffer g hok hb hd).1
    · exact (ioWriteStage_layout_buffered env in_buffer g hok hb).1
  refine ⟨rfl, by rw [hstk]; rfl, by rw [hstk, BitVec.toNat_ofNat],
    fun hb => (ioWriteStage_layout_buffered env in_buffer g hok hb).2, fun hb hd => ?_,
    fun hb hd => (ioWriteStage_layout_neither env in_buffer g hok hb hd).2⟩
  obtain ⟨-, hmdl, hva, -⟩ := ioWriteStage_layout_direct env in_buffer g hok hb hd
  rw [show mdl = _ from hmdl]
  exact ⟨rfl, rfl, BitVec.toNat_ofNat _ _, hva⟩

/-- Three bytes to a buffered device on `x86` reach the system buffer. -/
theorem ioWrite_request_layout_buffered_x86 :
  let env := refWindows .x86 (fun _ => 0x2000) 0x100
  let st := ioWriteStage env [1, 2, 3] ⟨refGuest 0x100 DO_BUFFERED_IO, []⟩
  let L := env.layout env.archtype.deviceWord
  let irp := L.irp.decode (st.req.guest.mem.read st.irp_addr L.irp.size)
  (env.archtype ≠ .arm64 ∧ env.archtype ≠ .a8086) ∧
    Trace.AllocOk env.archtype.deviceWord.bits st.req.trace ∧
    st.req.guest.mem.read irp.SystemBuffer 3 = [1, 2, 3]
  := ⟨by decide, by decide,
    (ioWrite_request_layout _ [1, 2, 3] _ (by decide) (by decide)).2.2.2.1 (by decide)⟩

/-- A write of `2 ^ 32` bytes on `x86-64` stages a stack location of `Length` zero. -/
theorem ioWrite_length_wraps :
  let env := refWindows .x8664 (fun _ => 0x2000) 0x100
  let in_buffer : List UInt8 := List.replicate (2 ^ 32) 0
  let st := ioWriteStage env in_buffer ⟨refGuest 0x100 0, []⟩
  let L := env.layout env.archtype.deviceWord
  let irp := L.irp.decode (st.req.guest.mem.read st.irp_addr L.irp.size)
  (L.stackWrite.decode (st.req.guest.mem.read irp.irpstack L.stackWrite.size)).Length.toNat ≠
    in_buffer.length
  := by
  dsimp only
  obtain ⟨ia, sa, ub, ws, -, -, hal, htr, -⟩ := ioWriteStage_of_neither
    (refWindows .x8664 (fun _ => 0x2000) 0x100) (List.replicate (2 ^ 32) 0) (refGuest 0x100 0)
    (by decide) (by decide)
  have haddr : [ia, sa, ub] = [4096, 4140, 4161] := by
    rw [← hal]
    decide
  simp only [List.cons.injEq, and_true] at haddr
  obtain ⟨rfl, rfl, rfl⟩ := haddr
  have hok := ioWriteStage_layout_neither (refWindows .x8664 (fun _ => 0x2000) 0x100)
    (List.replicate (2 ^ 32) 0) (refGuest 0x100 0)
    (by rw [htr]; simp only [List.length_replicate]; decide) (by decide) (by decide)
  have hw : (refWindows .x8664 (fun _ => 0x2000) 0x100).archtype.deviceWord =
    (refWindows .x8664 (fun _ => 0x2000) 0x100).archtype.structWord := rfl
  rw [hw, hok.1, BitVec.toNat_ofNat, List.length_replicate]
  decide

/-- Under `DO_DIRECT_IO` alone, the block the MDL describes holds at the call what the guest
held there before the request: `build_mdl` is given no data. -/
theorem ioWrite_direct_buffer_unwritten (env : QlWindows H) (in_buffer : List UInt8) (g : Guest H)
    (hok : Trace.AllocOk env.archtype.structWord.bits
      (ioWriteStage env in_buffer ⟨g, []⟩).req.trace)
    (hb : (ioWriteDevice env ⟨g, []⟩).1.Flags &&& DO_BUFFERED_IO = 0)
    (hd : (ioWriteDevice env ⟨g, []⟩).1.Flags &&& DO_DIRECT_IO ≠ 0) :
  let L := env.layout env.archtype.structWord
  let m := (ioWriteStage env in_buffer ⟨g, []⟩).req.guest.mem
  let irp := L.irp.decode (m.read (ioWriteStage env in_buffer ⟨g, []⟩).irp_addr L.irp.size)
  let va := (L.mdl.decode (m.read irp.MdlAddress L.mdl.size)).MappedSystemVa
  m.read va in_buffer.length = g.mem.read va in_buffer.length
  := (ioWriteStage_layout_direct env in_buffer g hok hb hd).2.2.2

/-- Three bytes to a direct-I/O device on `x86`: the MDL's block holds zeros. -/
theorem ioWrite_direct_buffer_unwritten_x86 :
  let env := refWindows .x86 (fun _ => 0x2000) 0x100
  let g := refGuest 0x100 DO_DIRECT_IO
  let st := ioWriteStage env [1, 2, 3] ⟨g, []⟩
  let L := env.layout env.archtype.structWord
  let irp := L.irp.decode (st.req.guest.mem.read st.irp_addr L.irp.size)
  let va := (L.mdl.decode (st.req.guest.mem.read irp.MdlAddress L.mdl.size)).MappedSystemVa
  Trace.AllocOk env.archtype.structWord.bits st.req.trace ∧
    (ioWriteDevice env ⟨g, []⟩).1.Flags &&& DO_BUFFERED_IO = 0 ∧
    (ioWriteDevice env ⟨g, []⟩).1.Flags &&& DO_DIRECT_IO ≠ 0 ∧
    st.req.guest.mem.read va 3 = [0, 0, 0]
  := ⟨by decide, by decide, by decide,
    (ioWrite_direct_buffer_unwritten _ [1, 2, 3] _ (by decide) (by decide) (by decide)).trans
      (by decide)⟩

/-! ### Allocations -/

/-- Staging allocates exactly `alloc_addr`, in order, frees nothing, and leaves those blocks
live. -/
theorem ioWriteStage_allocs (env : QlWindows H) (in_buffer : List UInt8) (g : Guest H) :
  let st := ioWriteStage env in_buffer ⟨g, []⟩
  st.req.trace.filterMap Event.allocated = st.alloc_addr ∧ (∀ e ∈ st.req.trace, ¬ e.IsFree) ∧
    env.heap.live st.req.guest.heap = ↑st.alloc_addr + env.heap.live g.heap
  := by
  dsimp only
  by_cases hb : (ioWriteDevice env ⟨g, []⟩).1.Flags &&& DO_BUFFERED_IO = 0
  · by_cases hd : (ioWriteDevice env ⟨g, []⟩).1.Flags &&& DO_DIRECT_IO = 0
    · obtain ⟨_, _, _, _, -, -, hal, htr, -, hl⟩ := ioWriteStage_of_neither env in_buffer g hb hd
      rw [htr, hal, hl]
      simp [Event.allocated, Event.IsFree, ← Multiset.cons_coe, Multiset.cons_swap]
    · obtain ⟨_, _, _, _, _, -, -, hal, htr, -, hl⟩ := ioWriteStage_of_direct env in_buffer g hb hd
      rw [htr, hal, hl]
      simp [Event.allocated, Event.IsFree, ← Multiset.cons_coe, Multiset.cons_swap]
  · obtain ⟨_, _, _, _, -, -, hal, htr, -, hl⟩ := ioWriteStage_of_buffered env in_buffer g hb
    rw [htr, hal, hl]
    simp [Event.allocated, Event.IsFree, ← Multiset.cons_coe, Multiset.cons_swap]

/-- An `io_Write` that completes frees what it allocated, after its last read, allocates and
frees nothing when it rejects the request, and leaves the heap as it found it but for what the
dispatch routine did to it; one that raises frees nothing. -/
theorem ioWrite_lifecycle (env : QlWindows H) (in_buffer : List UInt8) (g : Guest H) :
  let st := ioWriteStage env in_buffer ⟨g, []⟩
  let g' := (env.run (env.MajorFunction IRP_MJ_WRITE) st.req.guest).1
  (∀ r s', ioWrite env in_buffer g = .done r s' →
    (↑(s'.trace.filterMap Event.freed) : Multiset Nat) = ↑(s'.trace.filterMap Event.allocated) ∧
      Trace.FreesAfterReads s'.trace ∧
      (r.1 = false → s'.trace = [] ∧ s'.guest = g) ∧
      (r.1 = true → ∀ D, env.heap.live g'.heap = env.heap.live st.req.guest.heap + D →
        env.heap.live s'.guest.heap = env.heap.live g.heap + D)) ∧
  ∀ err s', ioWrite env in_buffer g = .fatal err s' → s'.trace.filterMap Event.freed = []
  := by
  obtain ⟨hal, hnf, hl⟩ := ioWriteStage_allocs env in_buffer g
  have hpost := fun s₁ : Req H => Req.afterReads_read (ioWriteStage env in_buffer ⟨g, []⟩).irp_addr
    (env.layout env.archtype.structWord).irp.size s₁
  refine ⟨fun r s' h => ?_, fun err s' h => ?_⟩ <;> unfold ioWrite at h
  · split at h
    · obtain ⟨rfl, rfl⟩ := Outcome.done.inj h
      exact ⟨rfl, ⟨[], [], rfl, by simp, by simp⟩, fun _ => ⟨rfl, rfl⟩, by simp⟩
    split at h
    · obtain ⟨⟨_, rfl⟩, hfr, hfa, hfar, hlv⟩ := Req.finish_done hpost hnf h
      refine ⟨by rw [hfr, hfa, hal], hfar, nofun, fun _ D hD => ?_⟩
      rw [hlv, hD, hl, add_assoc, add_tsub_cancel_left]
    · cases h
  · split at h
    · cases h
    split at h
    · exact (Req.finish_fatal hpost hnf h).1
    · obtain ⟨-, rfl⟩ := Outcome.fatal.inj h
      rfl

end QilingOs
