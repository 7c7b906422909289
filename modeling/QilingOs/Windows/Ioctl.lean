import QilingOs.Windows.IoWrite

/-!
# `ioctl`

`ioctl(params)` emulates `DeviceIoControl`: `params` is a control code given by its four
`CTL_CODE` fields, the size of the output buffer and the input bytes. The request allocates an
input buffer holding the input, an output buffer, the IRP and its stack location, which carries
the control code, the two lengths and the input buffer as `Type3InputBuffer`, and a system buffer
large enough for either, into which it copies the input. `METHOD_NEITHER` passes the output
buffer as the IRP's user buffer; `METHOD_IN_DIRECT` and `METHOD_OUT_DIRECT` add an MDL for a
fresh block of the output size. After the `DEVICE_CONTROL` dispatch routine returns, the request
reads the IRP back and, when its status is a success, `Information` bytes of output from where
the method puts it, and frees everything it allocated.

The stack location's `MajorFunction` is never set: it stays zero, as `IO_STACK_LOCATION()`
constructs it. A dispatch routine that finds its output buffer through the IRP, writes its reply
there and completes the IRP with a success status gets its reply back
(`ioctl_returns_routine_output`). The reads after the routine are outside the `try`, and the
frees come after them: when the routine reports more output than there is mapped memory,
`ioctl` raises and frees nothing (`ioctl_raises_of_output_unmapped`).
-/

namespace QilingOs

variable {H : Type}

/-! ### Control codes -/

/-- `ioctl_code(DeviceType, Function, Method, Access)`, the `CTL_CODE` macro. -/
def ioctlCode (DeviceType Function Method Access : Nat) : Nat :=
  (DeviceType <<< 16) ||| (Access <<< 14) ||| (Function <<< 2) ||| Method

/-- The fields `(DeviceType, Function, Method, Access)` of a control code: bits 16 to 31, 2 to
13, 0 and 1, and 14 and 15. -/
def ctlCodeFields (c : Nat) : Nat × Nat × Nat × Nat :=
  ((c >>> 16) % 2 ^ 16, (c >>> 2) % 2 ^ 12, c % 2 ^ 2, (c >>> 14) % 2 ^ 2)

/-- Fields within their widths occupy disjoint bits, so the code is their sum. -/
theorem ioctlCode_eq {d f m a : Nat} (hf : f < 2 ^ 12) (hm : m < 2 ^ 2) (ha : a < 2 ^ 2) :
  ioctlCode d f m a = 2 ^ 16 * d + 2 ^ 14 * a + 2 ^ 2 * f + m
  := by
  have h₁ : d <<< 16 ||| a <<< 14 = 2 ^ 14 * (2 ^ 2 * d + a) := by
    rw [Nat.shiftLeft_eq, Nat.shiftLeft_eq, Nat.mul_comm d, Nat.mul_comm a,
      ← Nat.mul_add_lt_is_or (by omega)]
    omega
  have h₂ : 2 ^ 14 * (2 ^ 2 * d + a) ||| f <<< 2 = 2 ^ 2 * (2 ^ 12 * (2 ^ 2 * d + a) + f) := by
    rw [Nat.shiftLeft_eq, ← Nat.mul_add_lt_is_or (by omega)]
    omega
  rw [ioctlCode, h₁, h₂, ← Nat.mul_add_lt_is_or hm]
  omega

/-- A control code of fields within their widths fits a `ULONG` and gives its fields back. -/
theorem ctlCodeFields_ioctlCode {d f m a : Nat} (hd : d < 2 ^ 16) (hf : f < 2 ^ 12)
    (hm : m < 2 ^ 2) (ha : a < 2 ^ 2) :
  ctlCodeFields (ioctlCode d f m a) = (d, f, m, a) ∧ ioctlCode d f m a < 2 ^ 32
  := by
  simp only [ctlCodeFields, ioctlCode_eq hf hm ha, Nat.shiftRight_eq_div_pow, Prod.mk.injEq]
  omega

/-! ### The request -/

/-- What `ioctl` has built when it transfers control to the driver: the request, the addresses
it reads the IRP and the output from, the MDL of a direct method, and `alloc_addr`. -/
structure IoctlStaged (H : Type) where
  req : Req H
  irp_addr : Nat
  system_buffer_addr : Nat
  output_buffer_addr : Nat
  mdl : Option Mdl
  alloc_addr : List Nat

/-- `ioctl` up to the call of the dispatch routine. -/
def ioctlStage (env : QlWindows H) (devicetype function ctl_method access output_buffer_size : Nat)
    (in_buffer : List UInt8) (s : Req H) : IoctlStaged H :=
  let L := env.layout env.archtype.structWord
  let input_buffer_size := in_buffer.length
  let (input_buffer_addr, s) := s.alloc env.heap input_buffer_size
  let s := s.write input_buffer_addr in_buffer
  let (output_buffer_addr, s) := s.alloc env.heap output_buffer_size
  let (irp_addr, s) := s.alloc env.heap L.irp.size
  let (irpstack_addr, s) := s.alloc env.heap L.stackDeviceIoControl.size
  let irpstack : IoStackDeviceIoControl :=
    { IoStackDeviceIoControl.empty with
      IoControlCode := BitVec.ofNat 32 (ioctlCode devicetype function ctl_method access),
      OutputBufferLength := BitVec.ofNat 32 output_buffer_size,
      InputBufferLength := BitVec.ofNat 32 input_buffer_size,
      Type3InputBuffer := input_buffer_addr }
  let s := s.write irpstack_addr (L.stackDeviceIoControl.encode irpstack)
  let irp : Irp := { Irp.empty with irpstack := irpstack_addr }
  let irp := if ctl_method = METHOD_NEITHER then { irp with UserBuffer := output_buffer_addr } else irp
  let system_buffer_size := max input_buffer_size output_buffer_size
  let (system_buffer_addr, s) := s.alloc env.heap system_buffer_size
  let s := s.write system_buffer_addr in_buffer
  let irp := { irp with SystemBuffer := system_buffer_addr }
  let (irp, s, mdl, mdl_addrs) :=
    if ctl_method = METHOD_IN_DIRECT ∨ ctl_method = METHOD_OUT_DIRECT then
      let (mdl, s, mapped_address) := buildMdl env s output_buffer_size []
      let (mdl_addr, s) := s.alloc env.heap L.mdl.size
      let s := s.write mdl_addr (L.mdl.encode mdl)
      ({ irp with MdlAddress := mdl_addr }, s, some mdl, [mapped_address, mdl_addr])
    else (irp, s, none, [])
  let s := s.write irp_addr (L.irp.encode irp)
  let s := s.writeParams [env.DeviceObject, irp_addr]
  { req := s, irp_addr, system_buffer_addr, output_buffer_addr, mdl,
    alloc_addr := [input_buffer_addr, output_buffer_addr, irp_addr, irpstack_addr,
      system_buffer_addr] ++ mdl_addrs }

/-- What `ioctl` returns. The body of its non-Windows branch is missing from `src/` (a `TODO`);
it is taken to return nothing and do nothing. -/
inductive IoctlResult where
  /-- `(None, None, None)`: the `DEVICE_CONTROL` entry is not registered. -/
  | rejected
  /-- `(io_status.Status.Status, io_status.Information.value, output_data)`. -/
  | completed (status : Int) (information : Nat) (output_data : List UInt8)
  /-- The non-Windows branch. -/
  | unsupported
  deriving DecidableEq, Repr

/-- The output of a request whose IRP came back as `irp`: read from the system buffer, the MDL's
block or the output buffer by the method, when the status (an `NTSTATUS`, signed) is a success;
empty otherwise. -/
def ioctlOutput (ctl_method : Nat) (st : IoctlStaged H) (irp : Irp) (s : Req H) :
    Except (UcError × Req H) (List UInt8 × Req H) :=
  if 0 ≤ irp.Status.toInt then do
    let (output_data, s) ←
      if ctl_method = METHOD_BUFFERED then s.read st.system_buffer_addr irp.Information
      else pure ([], s)
    let (output_data, s) ←
      if ctl_method = METHOD_IN_DIRECT ∨ ctl_method = METHOD_OUT_DIRECT then
        match st.mdl with
        | some mdl => s.read mdl.MappedSystemVa irp.Information
        | none => pure (output_data, s)
      else pure (output_data, s)
    if ctl_method = METHOD_NEITHER then s.read st.output_buffer_addr irp.Information
    else pure (output_data, s)
  else pure ([], s)

/-- What `ioctl` reads after the dispatch routine: the IRP, then the output. -/
def ioctlReadBack (env : QlWindows H) (ctl_method : Nat) (st : IoctlStaged H) (s : Req H) :
    Except (UcError × Req H) ((Irp × List UInt8) × Req H) := do
  let L := env.layout env.archtype.structWord
  let (irp_buffer, s) ← s.read st.irp_addr L.irp.size
  let irp := L.irp.decode irp_buffer
  let (output_data, s) ← ioctlOutput ctl_method st irp s
  pure ((irp, output_data), s)

/-- `ioctl(params)` from the guest `g`. -/
def ioctl (env : QlWindows H) (params : (Nat × Nat × Nat × Nat) × Nat × List UInt8) (g : Guest H) :
    Outcome H IoctlResult :=
  if env.ostype = .windows then
    if env.MajorFunction IRP_MJ_DEVICE_CONTROL = 0 then .done .rejected ⟨g, []⟩
    else
      let ((devicetype, function, ctl_method, access), output_buffer_size, in_buffer) := params
      let st := ioctlStage env devicetype function ctl_method access output_buffer_size in_buffer
        ⟨g, []⟩
      st.req.finish env (env.MajorFunction IRP_MJ_DEVICE_CONTROL) (ioctlReadBack env ctl_method st)
        (fun (irp, output_data) => .completed irp.Status.toInt irp.Information output_data)
        st.alloc_addr
  else .done .unsupported ⟨g, []⟩

/-! ### Reading back -/

/-- Where `ioctl` reads the output of a request of method `ctl_method`: the system buffer, the
MDL's block, the output buffer; nowhere for another method. -/
def ioctlOutputAddr (ctl_method : Nat) (st : IoctlStaged H) : Option Nat :=
  if ctl_method = METHOD_BUFFERED then some st.system_buffer_addr
  else if ctl_method = METHOD_IN_DIRECT ∨ ctl_method = METHOD_OUT_DIRECT then
    st.mdl.map Mdl.MappedSystemVa
  else if ctl_method = METHOD_NEITHER then some st.output_buffer_addr
  else none

/-- On a success status `ioctlOutput` makes one read, of `Information` bytes from where the
method puts the output. -/
theorem ioctlOutput_eq (ctl_method : Nat) (st : IoctlStaged H) (irp : Irp) (s : Req H) :
  ioctlOutput ctl_method st irp s =
    if 0 ≤ irp.Status.toInt then
      match ioctlOutputAddr ctl_method st with
      | some a => s.read a irp.Information
      | none => .ok ([], s)
    else .ok ([], s)
  := by
  unfold ioctlOutput ioctlOutputAddr
  by_cases h0 : 0 ≤ irp.Status.toInt
  swap
  · rw [if_neg h0, if_neg h0]
    rfl
  rw [if_pos h0, if_pos h0]
  by_cases hb : ctl_method = METHOD_BUFFERED
  · have hd : ¬(ctl_method = METHOD_IN_DIRECT ∨ ctl_method = METHOD_OUT_DIRECT) := by
      rw [hb]; decide
    have hn : ¬ctl_method = METHOD_NEITHER := by rw [hb]; decide
    simp only [if_pos hb, if_neg hd, if_neg hn, pure_bind, Prod.mk.eta, bind_pure]
  by_cases hd : ctl_method = METHOD_IN_DIRECT ∨ ctl_method = METHOD_OUT_DIRECT
  · have hn : ¬ctl_method = METHOD_NEITHER := by rcases hd with rfl | rfl <;> decide
    simp only [if_neg hb, if_pos hd, if_neg hn, pure_bind, Prod.mk.eta, bind_pure]
    rcases st.mdl with _ | mdl
    · rfl
    · simp only [Option.map_some', Prod.mk.eta, bind_pure]
  by_cases hn : ctl_method = METHOD_NEITHER
  · simp only [if_neg hb, if_neg hd, if_pos hn, pure_bind]
  · simp only [if_neg hb, if_neg hd, if_neg hn, pure_bind]
    rfl

/-- Reading back only reads, whether it returns or raises. -/
theorem ioctlReadBack_afterReads (env : QlWindows H) (ctl_method : Nat) (st : IoctlStaged H)
    (s : Req H) :
  s.AfterReads (Req.after (ioctlReadBack env ctl_method st s))
  := by
  refine Req.afterReads_bind (Req.afterReads_read _ _ s) fun r _ => Req.afterReads_bind ?_
    fun _ _ => .refl _
  rw [ioctlOutput_eq]
  split
  · split
    · exact Req.afterReads_read _ _ _
    · exact .refl _
  · exact .refl _

/-- With the IRP's range mapped, reading back reads the IRP and goes on with the output. -/
theorem ioctlReadBack_of_mapped (env : QlWindows H) (ctl_method : Nat) (st : IoctlStaged H)
    {s : Req H} (h : s.guest.Mapped st.irp_addr (env.layout env.archtype.structWord).irp.size) :
  let L := env.layout env.archtype.structWord
  let irp := L.irp.decode (s.guest.mem.read st.irp_addr L.irp.size)
  ioctlReadBack env ctl_method st s =
    ioctlOutput ctl_method st irp (s.load st.irp_addr L.irp.size).2 >>= fun r =>
      pure ((irp, r.1), r.2)
  := by
  simp only [ioctlReadBack, Req.read_of_mapped h]
  rfl

/-! ### Staging by method -/

/-- A method without an MDL: the IRP points to the system buffer, and for `METHOD_NEITHER` to the
output buffer as its user buffer. -/
theorem ioctlStage_of_not_direct (env : QlWindows H) (devicetype function ctl_method access out : Nat)
    (in_buffer : List UInt8) (g : Guest H)
    (hm : ¬(ctl_method = METHOD_IN_DIRECT ∨ ctl_method = METHOD_OUT_DIRECT)) :
  let L := env.layout env.archtype.structWord
  let st := ioctlStage env devicetype function ctl_method access out in_buffer ⟨g, []⟩
  ∃ (ib ob irp stk sb : Nat) (ws : List (Block × List UInt8)),
    let eStk := L.stackDeviceIoControl.encode
      { IoStackDeviceIoControl.empty with
        IoControlCode := BitVec.ofNat 32 (ioctlCode devicetype function ctl_method access),
        OutputBufferLength := BitVec.ofNat 32 out,
        InputBufferLength := BitVec.ofNat 32 in_buffer.length,
        Type3InputBuffer := ib }
    let eIrp := L.irp.encode
      { Irp.empty with
        irpstack := stk, SystemBuffer := sb, UserBuffer := if ctl_method = METHOD_NEITHER then ob else 0 }
    ws = [(⟨ib, in_buffer.length⟩, in_buffer), (⟨stk, L.stackDeviceIoControl.size⟩, eStk),
      (⟨sb, max in_buffer.length out⟩, in_buffer), (⟨irp, L.irp.size⟩, eIrp)] ∧
    st.irp_addr = irp ∧ st.system_buffer_addr = sb ∧ st.output_buffer_addr = ob ∧ st.mdl = none ∧
    st.alloc_addr = [ib, ob, irp, stk, sb] ∧
    st.req.trace = [.alloc in_buffer.length ib, .write ib in_buffer, .alloc out ob,
      .alloc L.irp.size irp, .alloc L.stackDeviceIoControl.size stk, .write stk eStk,
      .alloc (max in_buffer.length out) sb, .write sb in_buffer, .write irp eIrp] ∧
    st.req.guest.mem = g.mem.writeAll (ws.map fun w => (w.1.address, w.2)) ∧
    env.heap.live st.req.guest.heap = sb ::ₘ stk ::ₘ irp ::ₘ ob ::ₘ ib ::ₘ env.heap.live g.heap
  := by
  have hirp : ∀ (stk sb ob : Nat),
      { (if ctl_method = METHOD_NEITHER then { Irp.empty with irpstack := stk, UserBuffer := ob }
        else { Irp.empty with irpstack := stk }) with SystemBuffer := sb } =
      { Irp.empty with
        irpstack := stk, SystemBuffer := sb, UserBuffer := if ctl_method = METHOD_NEITHER then ob else 0 } := by
    intro stk sb ob
    split <;> rfl
  simp only [ioctlStage, if_neg hm, hirp]
  refine ⟨_, _, _, _, _, _, rfl, rfl, rfl, rfl, trivial, rfl, rfl, rfl, ?_⟩
  simp [env.heap.live_alloc]

/-- `METHOD_IN_DIRECT` or `METHOD_OUT_DIRECT`: the IRP also points to an MDL describing a fresh
block of the output size. -/
theorem ioctlStage_of_direct (env : QlWindows H) (devicetype function ctl_method access out : Nat)
    (in_buffer : List UInt8) (g : Guest H)
    (hm : ctl_method = METHOD_IN_DIRECT ∨ ctl_method = METHOD_OUT_DIRECT) :
  let L := env.layout env.archtype.structWord
  let st := ioctlStage env devicetype function ctl_method access out in_buffer ⟨g, []⟩
  ∃ (ib ob irp stk sb va md : Nat) (ws : List (Block × List UInt8)),
    let eStk := L.stackDeviceIoControl.encode
      { IoStackDeviceIoControl.empty with
        IoControlCode := BitVec.ofNat 32 (ioctlCode devicetype function ctl_method access),
        OutputBufferLength := BitVec.ofNat 32 out,
        InputBufferLength := BitVec.ofNat 32 in_buffer.length,
        Type3InputBuffer := ib }
    let mdl : Mdl := ⟨va, va, 0, BitVec.ofNat 32 out⟩
    let eIrp := L.irp.encode { Irp.empty with irpstack := stk, SystemBuffer := sb, MdlAddress := md }
    ws = [(⟨ib, in_buffer.length⟩, in_buffer), (⟨stk, L.stackDeviceIoControl.size⟩, eStk),
      (⟨sb, max in_buffer.length out⟩, in_buffer), (⟨md, L.mdl.size⟩, L.mdl.encode mdl),
      (⟨irp, L.irp.size⟩, eIrp)] ∧
    st.irp_addr = irp ∧ st.system_buffer_addr = sb ∧ st.output_buffer_addr = ob ∧
    st.mdl = some mdl ∧ st.alloc_addr = [ib, ob, irp, stk, sb, va, md] ∧
    st.req.trace = [.alloc in_buffer.length ib, .write ib in_buffer, .alloc out ob,
      .alloc L.irp.size irp, .alloc L.stackDeviceIoControl.size stk, .write stk eStk,
      .alloc (max in_buffer.length out) sb, .write sb in_buffer, .alloc out va,
      .alloc L.mdl.size md, .write md (L.mdl.encode mdl), .write irp eIrp] ∧
    st.req.guest.mem = g.mem.writeAll (ws.map fun w => (w.1.address, w.2)) ∧
    env.heap.live st.req.guest.heap =
      md ::ₘ va ::ₘ sb ::ₘ stk ::ₘ irp ::ₘ ob ::ₘ ib ::ₘ env.heap.live g.heap
  := by
  have hn : ¬ctl_method = METHOD_NEITHER := by rcases hm with rfl | rfl <;> decide
  simp only [ioctlStage, if_pos hm, if_neg hn, buildMdl, ne_eq, not_true_eq_false, if_false]
  refine ⟨_, _, _, _, _, _, _, _, rfl, rfl, rfl, rfl, rfl, rfl, ?_, ?_, ?_⟩
  · rfl
  · rfl
  · simp [env.heap.live_alloc]

/-! ### The request the driver sees -/

section Layout

variable (env : QlWindows H) (devicetype function ctl_method access out : Nat)
  (in_buffer : List UInt8) (g : Guest H)
  (hok : Trace.AllocOk env.archtype.structWord.bits
    (ioctlStage env devicetype function ctl_method access out in_buffer ⟨g, []⟩).req.trace)
include hok

/-- Without an MDL, the stack location carries the control code, the two lengths and the input
buffer, which holds the input; the system buffer starts with the input and has the larger size. -/
theorem ioctlStage_layout_not_direct
    (hm : ¬(ctl_method = METHOD_IN_DIRECT ∨ ctl_method = METHOD_OUT_DIRECT)) :
  let L := env.layout env.archtype.structWord
  let st := ioctlStage env devicetype function ctl_method access out in_buffer ⟨g, []⟩
  let m := st.req.guest.mem
  let irp := L.irp.decode (m.read st.irp_addr L.irp.size)
  let stk := L.stackDeviceIoControl.decode (m.read irp.irpstack L.stackDeviceIoControl.size)
  stk = { IoStackDeviceIoControl.empty with
      IoControlCode := BitVec.ofNat 32 (ioctlCode devicetype function ctl_method access),
      OutputBufferLength := BitVec.ofNat 32 out,
      InputBufferLength := BitVec.ofNat 32 in_buffer.length,
      Type3InputBuffer := stk.Type3InputBuffer } ∧
    m.read stk.Type3InputBuffer in_buffer.length = in_buffer ∧
    m.read irp.SystemBuffer in_buffer.length = in_buffer ∧
    Event.alloc (max in_buffer.length out) irp.SystemBuffer ∈ st.req.trace ∧
    irp.SystemBuffer = st.system_buffer_addr ∧
    (ctl_method = METHOD_NEITHER → irp.UserBuffer = st.output_buffer_addr)
  := by
  obtain ⟨ib, ob, ia, sa, sb, ws, hws, hia, hsb', hob', -, -, htr, hmem, -⟩ :=
    ioctlStage_of_not_direct env devicetype function ctl_method access out in_buffer g hm
  dsimp only
  rw [htr] at hok ⊢
  have hwr : (ws.map Prod.fst).Pairwise Block.Disjoint := by
    rw [hws]
    exact hok.pairwise_of_subperm ⟨_, (List.perm_append_singleton (⟨ia, _⟩ : Block) [⟨sa, _⟩, ⟨sb, _⟩]).symm.cons _,
      .cons₂ _ (.cons _ (.refl _))⟩
  have hr := @Mem.read_writeAll_blocks g.mem ws hwr (by simp [hws])
  rw [hws] at hr
  simp only [List.forall_mem_cons, Codec.length_encode] at hr
  obtain ⟨hri, hrs, hrb, hrp, -⟩ := hr
  have hlt : ∀ a ∈ [ib, ob, ia, sa, sb], a < 2 ^ env.archtype.structWord.bits := fun a ha =>
    hok.lt_of_allocated (by simpa [Event.allocated] using ha)
  simp only [List.forall_mem_cons] at hlt
  obtain ⟨hib, hob, -, hsa, hsb, -⟩ := hlt
  have hfit : Irp.Fits env.archtype.structWord { Irp.empty with
      irpstack := sa, SystemBuffer := sb, UserBuffer := if ctl_method = METHOD_NEITHER then ob else 0 } :=
    ⟨Nat.two_pow_pos _, hsb, by split; exacts [hob, Nat.two_pow_pos _], hsa, Nat.two_pow_pos _⟩
  rw [hia, hmem, hws, hrp, Codec.decode_encode _ _ hfit]
  dsimp only
  rw [hrs, Codec.decode_encode]
  exacts [⟨rfl, hri, hrb, by simp, hsb'.symm, fun hn => by rw [if_pos hn, hob']⟩, hib]

/-- With an MDL, the same, and the MDL describes a block of the output size. -/
theorem ioctlStage_layout_direct
    (hm : ctl_method = METHOD_IN_DIRECT ∨ ctl_method = METHOD_OUT_DIRECT) :
  let L := env.layout env.archtype.structWord
  let st := ioctlStage env devicetype function ctl_method access out in_buffer ⟨g, []⟩
  let m := st.req.guest.mem
  let irp := L.irp.decode (m.read st.irp_addr L.irp.size)
  let stk := L.stackDeviceIoControl.decode (m.read irp.irpstack L.stackDeviceIoControl.size)
  let mdl := L.mdl.decode (m.read irp.MdlAddress L.mdl.size)
  stk = { IoStackDeviceIoControl.empty with
      IoControlCode := BitVec.ofNat 32 (ioctlCode devicetype function ctl_method access),
      OutputBufferLength := BitVec.ofNat 32 out,
      InputBufferLength := BitVec.ofNat 32 in_buffer.length,
      Type3InputBuffer := stk.Type3InputBuffer } ∧
    m.read stk.Type3InputBuffer in_buffer.length = in_buffer ∧
    m.read irp.SystemBuffer in_buffer.length = in_buffer ∧
    Event.alloc (max in_buffer.length out) irp.SystemBuffer ∈ st.req.trace ∧
    mdl = ⟨mdl.MappedSystemVa, mdl.MappedSystemVa, 0, BitVec.ofNat 32 out⟩ ∧
    Event.alloc out mdl.MappedSystemVa ∈ st.req.trace ∧
    irp.SystemBuffer = st.system_buffer_addr ∧ st.mdl = some mdl
  := by
  obtain ⟨ib, ob, ia, sa, sb, va, ma, ws, hws, hia, hsb', -, hmdl', -, htr, hmem, -⟩ :=
    ioctlStage_of_direct env devicetype function ctl_method access out in_buffer g hm
  dsimp only
  rw [htr] at hok ⊢
  have hwr : (ws.map Prod.fst).Pairwise Block.Disjoint := by
    rw [hws]
    exact hok.pairwise_of_subperm
      ⟨_, (List.perm_append_singleton (⟨ia, _⟩ : Block) [⟨sa, _⟩, ⟨sb, _⟩, ⟨ma, _⟩]).symm.cons _,
        .cons₂ _ (.cons _ (.cons₂ _ (.cons₂ _ (.cons₂ _ (.cons _ (.refl _))))))⟩
  have hr := @Mem.read_writeAll_blocks g.mem ws hwr (by simp [hws])
  rw [hws] at hr
  simp only [List.forall_mem_cons, Codec.length_encode] at hr
  obtain ⟨hri, hrs, hrb, hrm, hrp, -⟩ := hr
  have hlt : ∀ a ∈ [ib, ob, ia, sa, sb, va, ma], a < 2 ^ env.archtype.structWord.bits :=
    fun a ha => hok.lt_of_allocated (by simpa [Event.allocated] using ha)
  simp only [List.forall_mem_cons] at hlt
  obtain ⟨hib, -, -, hsa, hsb, hva, hma, -⟩ := hlt
  have hfit : Irp.Fits env.archtype.structWord
      { Irp.empty with irpstack := sa, SystemBuffer := sb, MdlAddress := ma } :=
    ⟨hma, hsb, Nat.two_pow_pos _, hsa, Nat.two_pow_pos _⟩
  rw [hia, hmem, hws, hrp, Codec.decode_encode _ _ hfit]
  dsimp only
  rw [hrs, hrm, (env.layout _).mdl.decode_encode ⟨va, va, 0, BitVec.ofNat 32 out⟩ ⟨hva, hva⟩,
    Codec.decode_encode]
  exacts [⟨rfl, hri, hrb, by simp, rfl, by simp, hsb'.symm, hmdl'⟩, hib]

end Layout

/-- At the call of the `DEVICE_CONTROL` dispatch routine, on every architecture but `arm64` and
`a8086`, for a control code of fields within their widths, the guest memory read with the
layouts of `ql.archbit` holds an IRP whose stack location carries a code with those fields, the
input's length and the output size, each modulo `2 ^ 32` (`ULONG`), and a `Type3InputBuffer`
holding the input; the system buffer, a block of the larger of the two sizes, starts with the
input; and for the direct methods the IRP points to an MDL describing a block of the output size
the request allocated. -/
theorem ioctl_request_layout (env : QlWindows H) (devicetype function ctl_method access out : Nat)
    (in_buffer : List UInt8) (g : Guest H) (harch : env.archtype ≠ .arm64 ∧ env.archtype ≠ .a8086)
    (hd : devicetype < 2 ^ 16) (hf : function < 2 ^ 12) (hm : ctl_method < 2 ^ 2)
    (ha : access < 2 ^ 2)
    (hok : Trace.AllocOk env.archtype.deviceWord.bits
      (ioctlStage env devicetype function ctl_method access out in_buffer ⟨g, []⟩).req.trace) :
  let L := env.layout env.archtype.deviceWord
  let st := ioctlStage env devicetype function ctl_method access out in_buffer ⟨g, []⟩
  let m := st.req.guest.mem
  let irp := L.irp.decode (m.read st.irp_addr L.irp.size)
  let stk := L.stackDeviceIoControl.decode (m.read irp.irpstack L.stackDeviceIoControl.size)
  let mdl := L.mdl.decode (m.read irp.MdlAddress L.mdl.size)
  st.req.guest.params = [env.DeviceObject, st.irp_addr] ∧
    ctlCodeFields stk.IoControlCode.toNat = (devicetype, function, ctl_method, access) ∧
    stk.InputBufferLength.toNat = in_buffer.length % 2 ^ 32 ∧
    stk.OutputBufferLength.toNat = out % 2 ^ 32 ∧
    m.read stk.Type3InputBuffer in_buffer.length = in_buffer ∧
    m.read irp.SystemBuffer in_buffer.length = in_buffer ∧
    Event.alloc (max in_buffer.length out) irp.SystemBuffer ∈ st.req.trace ∧
    (ctl_method = METHOD_IN_DIRECT ∨ ctl_method = METHOD_OUT_DIRECT →
      mdl.StartVa = mdl.MappedSystemVa ∧ mdl.ByteOffset = 0 ∧ mdl.ByteCount.toNat = out % 2 ^ 32 ∧
        Event.alloc out mdl.MappedSystemVa ∈ st.req.trace)
  := by
  rw [← (QlArch.structWord_eq_deviceWord_iff _).mpr harch] at hok ⊢
  intro L st m irp stk mdl
  have hcode := ctlCodeFields_ioctlCode hd hf hm ha
  obtain ⟨hs, hT, hS, hA⟩ : stk = { IoStackDeviceIoControl.empty with
      IoControlCode := BitVec.ofNat 32 (ioctlCode devicetype function ctl_method access),
      OutputBufferLength := BitVec.ofNat 32 out,
      InputBufferLength := BitVec.ofNat 32 in_buffer.length,
      Type3InputBuffer := stk.Type3InputBuffer } ∧
      m.read stk.Type3InputBuffer in_buffer.length = in_buffer ∧
      m.read irp.SystemBuffer in_buffer.length = in_buffer ∧
      Event.alloc (max in_buffer.length out) irp.SystemBuffer ∈ st.req.trace := by
    by_cases hdir : ctl_method = METHOD_IN_DIRECT ∨ ctl_method = METHOD_OUT_DIRECT
    · obtain ⟨h₁, h₂, h₃, h₄, -⟩ :=
        ioctlStage_layout_direct env devicetype function ctl_method access out in_buffer g hok hdir
      exact ⟨h₁, h₂, h₃, h₄⟩
    · obtain ⟨h₁, h₂, h₃, h₄, -⟩ :=
        ioctlStage_layout_not_direct env devicetype function ctl_method access out in_buffer g hok hdir
      exact ⟨h₁, h₂, h₃, h₄⟩
  refine ⟨rfl, ?_, by rw [hs]; exact BitVec.toNat_ofNat _ _, by rw [hs]; exact BitVec.toNat_ofNat _ _,
    hT, hS, hA, fun hdir => ?_⟩
  · rw [hs]
    show ctlCodeFields (BitVec.ofNat 32 _).toNat = _
    rw [BitVec.toNat_ofNat, Nat.mod_eq_of_lt hcode.2, hcode.1]
  · obtain ⟨-, -, -, -, hmdl, hva, -⟩ :=
      ioctlStage_layout_direct env devicetype function ctl_method access out in_buffer g hok hdir
    rw [show mdl = _ from hmdl]
    exact ⟨rfl, rfl, BitVec.toNat_ofNat _ _, hva⟩

/-- A buffered IOCTL with control code `CTL_CODE(0x22, 0x800, 0, 0)` and three input bytes on
`x86`. -/
theorem ioctl_request_layout_x86 :
  let env := refWindows .x86 (fun _ => 0x2000) 0x100
  let st := ioctlStage env 0x22 0x800 METHOD_BUFFERED 0 4 [1, 2, 3] ⟨refGuest 0x100 0, []⟩
  let L := env.layout env.archtype.deviceWord
  let irp := L.irp.decode (st.req.guest.mem.read st.irp_addr L.irp.size)
  let stk := L.stackDeviceIoControl.decode
    (st.req.guest.mem.read irp.irpstack L.stackDeviceIoControl.size)
  (env.archtype ≠ .arm64 ∧ env.archtype ≠ .a8086) ∧
    Trace.AllocOk env.archtype.deviceWord.bits st.req.trace ∧
    ctlCodeFields stk.IoControlCode.toNat = (0x22, 0x800, METHOD_BUFFERED, 0)
  := ⟨by decide, by decide, (ioctl_request_layout _ 0x22 0x800 METHOD_BUFFERED 0 4 [1, 2, 3] _
    (by decide) (by decide) (by decide) (by decide) (by decide) (by decide)).2.1⟩

/-- An IOCTL with an output size of `2 ^ 32` on `x86-64`: the stack location's
`OutputBufferLength` is zero. -/
theorem ioctl_output_length_wraps :
  let env := refWindows .x8664 (fun _ => 0x2000) 0x100
  let st := ioctlStage env 0x22 0 METHOD_BUFFERED 0 (2 ^ 32) [] ⟨refGuest 0x100 0, []⟩
  let L := env.layout env.archtype.deviceWord
  let irp := L.irp.decode (st.req.guest.mem.read st.irp_addr L.irp.size)
  let stk := L.stackDeviceIoControl.decode
    (st.req.guest.mem.read irp.irpstack L.stackDeviceIoControl.size)
  Trace.AllocOk env.archtype.deviceWord.bits st.req.trace ∧ stk.OutputBufferLength.toNat ≠ 2 ^ 32
  := by decide

/-- The stack location of an IOCTL has `MajorFunction` zero, where `io_Write` sets
`IRP_MJ_WRITE`: `ioctl` never sets it. -/
theorem ioctl_stack_major_function_zero (env : QlWindows H)
    (devicetype function ctl_method access out : Nat) (in_buffer : List UInt8) (g : Guest H)
    (hok : Trace.AllocOk env.archtype.structWord.bits
      (ioctlStage env devicetype function ctl_method access out in_buffer ⟨g, []⟩).req.trace) :
  let L := env.layout env.archtype.structWord
  let st := ioctlStage env devicetype function ctl_method access out in_buffer ⟨g, []⟩
  let irp := L.irp.decode (st.req.guest.mem.read st.irp_addr L.irp.size)
  (L.stackDeviceIoControl.decode
    (st.req.guest.mem.read irp.irpstack L.stackDeviceIoControl.size)).MajorFunction = 0
  := by
  dsimp only
  by_cases hdir : ctl_method = METHOD_IN_DIRECT ∨ ctl_method = METHOD_OUT_DIRECT
  · rw [(ioctlStage_layout_direct env devicetype function ctl_method access out in_buffer g hok
      hdir).1]
    rfl
  · rw [(ioctlStage_layout_not_direct env devicetype function ctl_method access out in_buffer g hok
      hdir).1]
    rfl

/-- The IOCTL of `ioctl_request_layout_x86`: `MajorFunction` is zero, not
`IRP_MJ_DEVICE_CONTROL`. -/
theorem ioctl_stack_major_function_zero_x86 :
  let env := refWindows .x86 (fun _ => 0x2000) 0x100
  let st := ioctlStage env 0x22 0x800 METHOD_BUFFERED 0 4 [1, 2, 3] ⟨refGuest 0x100 0, []⟩
  let L := env.layout env.archtype.structWord
  let irp := L.irp.decode (st.req.guest.mem.read st.irp_addr L.irp.size)
  Trace.AllocOk env.archtype.structWord.bits st.req.trace ∧
    (L.stackDeviceIoControl.decode
      (st.req.guest.mem.read irp.irpstack L.stackDeviceIoControl.size)).MajorFunction.toNat ≠
      IRP_MJ_DEVICE_CONTROL
  := ⟨by decide, by
    rw [ioctl_stack_major_function_zero _ 0x22 0x800 METHOD_BUFFERED 0 4 [1, 2, 3] _ (by decide)]
    decide⟩

/-! ### Allocations -/

/-- Staging allocates exactly `alloc_addr`, in order, frees nothing, and leaves those blocks
live. -/
theorem ioctlStage_allocs (env : QlWindows H) (devicetype function ctl_method access out : Nat)
    (in_buffer : List UInt8) (g : Guest H) :
  let st := ioctlStage env devicetype function ctl_method access out in_buffer ⟨g, []⟩
  st.req.trace.filterMap Event.allocated = st.alloc_addr ∧ (∀ e ∈ st.req.trace, ¬ e.IsFree) ∧
    env.heap.live st.req.guest.heap = ↑st.alloc_addr + env.heap.live g.heap
  := by
  dsimp only
  by_cases hdir : ctl_method = METHOD_IN_DIRECT ∨ ctl_method = METHOD_OUT_DIRECT
  · obtain ⟨_, _, _, _, _, _, _, _, -, -, -, -, -, hal, htr, -, hl⟩ :=
      ioctlStage_of_direct env devicetype function ctl_method access out in_buffer g hdir
    rw [htr, hal, hl]
    simp [Event.allocated, Event.IsFree, ← Multiset.cons_coe, Multiset.cons_swap]
  · obtain ⟨_, _, _, _, _, _, -, -, -, -, -, hal, htr, -, hl⟩ :=
      ioctlStage_of_not_direct env devicetype function ctl_method access out in_buffer g hdir
    rw [htr, hal, hl]
    simp [Event.allocated, Event.IsFree, ← Multiset.cons_coe, Multiset.cons_swap]

/-- An `ioctl` that completes frees what it allocated, after its last read, allocates and frees
nothing when it rejects the request or does not handle it, and leaves the heap as it found it
but for what the dispatch routine did to it; one that raises frees nothing. -/
theorem ioctl_lifecycle (env : QlWindows H) (devicetype function ctl_method access out : Nat)
    (in_buffer : List UInt8) (g : Guest H) :
  let st := ioctlStage env devicetype function ctl_method access out in_buffer ⟨g, []⟩
  let g' := (env.run (env.MajorFunction IRP_MJ_DEVICE_CONTROL) st.req.guest).1
  (∀ r s', ioctl env ((devicetype, function, ctl_method, access), out, in_buffer) g = .done r s' →
    (↑(s'.trace.filterMap Event.freed) : Multiset Nat) = ↑(s'.trace.filterMap Event.allocated) ∧
      Trace.FreesAfterReads s'.trace ∧
      (r = .rejected ∨ r = .unsupported → s'.trace = [] ∧ s'.guest = g) ∧
      (r ≠ .rejected → r ≠ .unsupported → ∀ D,
        env.heap.live g'.heap = env.heap.live st.req.guest.heap + D →
        env.heap.live s'.guest.heap = env.heap.live g.heap + D)) ∧
  ∀ err s', ioctl env ((devicetype, function, ctl_method, access), out, in_buffer) g = .fatal err s' →
    s'.trace.filterMap Event.freed = []
  := by
  obtain ⟨hal, hnf, hl⟩ := ioctlStage_allocs env devicetype function ctl_method access out
    in_buffer g
  have hpost := ioctlReadBack_afterReads env ctl_method
    (ioctlStage env devicetype function ctl_method access out in_buffer ⟨g, []⟩)
  have hnil : Trace.FreesAfterReads ([] : List Event) := ⟨[], [], rfl, nofun, nofun⟩
  refine ⟨fun r s' h => ?_, fun err s' h => ?_⟩ <;> unfold ioctl at h
  · split at h
    · split at h
      · obtain ⟨rfl, rfl⟩ := Outcome.done.inj h
        exact ⟨rfl, hnil, fun _ => ⟨rfl, rfl⟩, fun h _ => (h rfl).elim⟩
      · obtain ⟨⟨⟨_, _⟩, rfl⟩, hfr, hfa, hfar, hlv⟩ := Req.finish_done hpost hnf h
        refine ⟨by rw [hfr, hfa, hal], hfar, ?_, fun _ _ D hD => ?_⟩
        · rintro (h | h) <;> cases h
        · rw [hlv, hD, hl, add_assoc, add_tsub_cancel_left]
    · obtain ⟨rfl, rfl⟩ := Outcome.done.inj h
      exact ⟨rfl, hnil, fun _ => ⟨rfl, rfl⟩, fun _ h => (h rfl).elim⟩
  · split at h
    · split at h
      · cases h
      · exact (Req.finish_fatal hpost hnf h).1
    · cases h

/-! ### What the dispatch routine gets back -/

/-- The output buffer of a request of method `ctl_method` as a dispatch routine finds it from the
IRP at `irp_addr` in memory `m`: the system buffer for `METHOD_BUFFERED`, the user buffer for
`METHOD_NEITHER`, and the block of the MDL at `MdlAddress` for the direct methods. -/
def Layout.outputBuffer {w : WordSize} (L : Layout w) (ctl_method : Nat) (m : Mem)
    (irp_addr : Nat) : Nat :=
  let irp := L.irp.decode (m.read irp_addr L.irp.size)
  if ctl_method = METHOD_BUFFERED then irp.SystemBuffer
  else if ctl_method = METHOD_NEITHER then irp.UserBuffer
  else (L.mdl.decode (m.read irp.MdlAddress L.mdl.size)).MappedSystemVa

/-- `ioctl` reads the output from where the dispatch routine finds the output buffer through the
IRP it is handed. -/
theorem ioctlStage_outputAddr (env : QlWindows H) (devicetype function ctl_method access out : Nat)
    (in_buffer : List UInt8) (g : Guest H)
    (hok : Trace.AllocOk env.archtype.structWord.bits
      (ioctlStage env devicetype function ctl_method access out in_buffer ⟨g, []⟩).req.trace)
    (hm : ctl_method < 2 ^ 2) :
  let st := ioctlStage env devicetype function ctl_method access out in_buffer ⟨g, []⟩
  ioctlOutputAddr ctl_method st =
    some ((env.layout env.archtype.structWord).outputBuffer ctl_method st.req.guest.mem st.irp_addr)
  := by
  dsimp only
  by_cases hdir : ctl_method = METHOD_IN_DIRECT ∨ ctl_method = METHOD_OUT_DIRECT
  · obtain ⟨-, -, -, -, -, -, -, hmdl⟩ :=
      ioctlStage_layout_direct env devicetype function ctl_method access out in_buffer g hok hdir
    have hb : ¬ctl_method = METHOD_BUFFERED := by rcases hdir with rfl | rfl <;> decide
    have hn : ¬ctl_method = METHOD_NEITHER := by rcases hdir with rfl | rfl <;> decide
    simp only [ioctlOutputAddr, Layout.outputBuffer, if_neg hb, if_pos hdir, if_neg hn, hmdl,
      Option.map_some']
  · obtain ⟨-, -, -, -, hsb, hub⟩ :=
      ioctlStage_layout_not_direct env devicetype function ctl_method access out in_buffer g hok hdir
    have hm' : ctl_method = METHOD_BUFFERED ∨ ctl_method = METHOD_NEITHER := by
      simp only [METHOD_IN_DIRECT, METHOD_OUT_DIRECT, METHOD_BUFFERED, METHOD_NEITHER] at hdir ⊢
      omega
    rcases hm' with hb | hn
    · simp only [ioctlOutputAddr, Layout.outputBuffer, if_pos hb, hsb]
    · have hb : ¬ctl_method = METHOD_BUFFERED := by rw [hn]; decide
      simp only [ioctlOutputAddr, Layout.outputBuffer, if_neg hb, if_neg hdir, if_pos hn, hub hn]

/-- A dispatch routine that finds the output buffer of its method through the IRP it is handed,
leaves its reply `d` there and completes the IRP with a success status and an `Information` of
the reply's length, and then returns or has its fault absorbed, gets back from `ioctl` that
status, that length and exactly `d`, when the IRP and the reply are in mapped memory. -/
theorem ioctl_returns_routine_output (env : QlWindows H)
    (devicetype function ctl_method access out : Nat) (in_buffer : List UInt8) (g : Guest H)
    (d : List UInt8) (hwin : env.ostype = .windows)
    (hreg : env.MajorFunction IRP_MJ_DEVICE_CONTROL ≠ 0) (hm : ctl_method < 2 ^ 2)
    (hok : Trace.AllocOk env.archtype.structWord.bits
      (ioctlStage env devicetype function ctl_method access out in_buffer ⟨g, []⟩).req.trace) :
  let L := env.layout env.archtype.structWord
  let st := ioctlStage env devicetype function ctl_method access out in_buffer ⟨g, []⟩
  let buffer := L.outputBuffer ctl_method st.req.guest.mem st.irp_addr
  let r := env.run (env.MajorFunction IRP_MJ_DEVICE_CONTROL) st.req.guest
  let irp := L.irp.decode (r.1.mem.read st.irp_addr L.irp.size)
  (∀ err, r.2 = some err → env.verifyRet r.1 err = true) →
    r.1.Mapped st.irp_addr L.irp.size → 0 ≤ irp.Status.toInt → irp.Information = d.length →
    r.1.Mapped buffer d.length → r.1.mem.read buffer d.length = d →
    (ioctl env ((devicetype, function, ctl_method, access), out, in_buffer) g).result =
      some (.completed irp.Status.toInt d.length d)
  := by
  intro L st buffer r irp hrun hirp h0 hinfo hbuf hd
  let s₀ := st.req.ran env (env.MajorFunction IRP_MJ_DEVICE_CONTROL)
  let irp₀ := L.irp.decode (s₀.guest.mem.read st.irp_addr L.irp.size)
  let s₁ := (s₀.load st.irp_addr L.irp.size).2
  have hirp' : s₀.guest.Mapped st.irp_addr L.irp.size := hirp
  have hbuf' : s₁.guest.Mapped buffer d.length := hbuf
  have h0' : 0 ≤ irp₀.Status.toInt := h0
  have hinfo' : irp₀.Information = d.length := hinfo
  have hout : ioctlOutput ctl_method st irp₀ s₁ = .ok (d, (s₁.load buffer d.length).2) := by
    rw [ioctlOutput_eq, if_pos h0', ioctlStage_outputAddr env devicetype function ctl_method access
      out in_buffer g hok hm, hinfo']
    exact (Req.read_of_mapped hbuf').trans (congrArg (fun x => Except.ok (x, _)) hd)
  rw [ioctl, if_pos hwin, if_neg hreg]
  dsimp only
  rw [Req.finish_of_absorbed _ _ _ hrun, ioctlReadBack_of_mapped env ctl_method st hirp', hout]
  exact congrArg (fun n => some (IoctlResult.completed irp.Status.toInt n d)) hinfo

/-- A dispatch routine on `x86` that replies `7 8 9` to a buffered IOCTL gets `7 8 9` back. -/
theorem ioctl_returns_routine_output_x86 :
  let env : QlWindows BumpHeap := { refWindows .x86 (fun _ => 0x2000) 0x100 with
    run := fun _ g => (completeIrp .w32 0 3 [7, 8, 9] g, none) }
  (ioctl env ((0x22, 0x800, METHOD_BUFFERED, 0), 4, [1, 2, 3]) (refGuest 0x100 0)).result =
    some (.completed 0 3 [7, 8, 9])
  := ioctl_returns_routine_output _ 0x22 0x800 METHOD_BUFFERED 0 4 [1, 2, 3] _ [7, 8, 9] rfl
    (by decide) (by decide) (by decide) nofun (by decide) (by decide) (by decide) (by decide)
    (by decide)

/-! ### A read after the routine that raises -/

/-- An `ioctl` whose dispatch routine returns, or has its fault absorbed, with the IRP in mapped
memory, a success status and an `Information` that takes the output read into unmapped memory
raises `UC_ERR_READ_UNMAPPED` from that read: it frees none of the blocks it allocated, and the
heap is the one the routine left. -/
theorem ioctl_raises_of_output_unmapped (env : QlWindows H)
    (devicetype function ctl_method access out : Nat) (in_buffer : List UInt8) (g : Guest H)
    (hwin : env.ostype = .windows) (hreg : env.MajorFunction IRP_MJ_DEVICE_CONTROL ≠ 0) (a : Nat)
    (ha : ioctlOutputAddr ctl_method
      (ioctlStage env devicetype function ctl_method access out in_buffer ⟨g, []⟩) = some a) :
  let L := env.layout env.archtype.structWord
  let st := ioctlStage env devicetype function ctl_method access out in_buffer ⟨g, []⟩
  let r := env.run (env.MajorFunction IRP_MJ_DEVICE_CONTROL) st.req.guest
  let irp := L.irp.decode (r.1.mem.read st.irp_addr L.irp.size)
  (∀ err, r.2 = some err → env.verifyRet r.1 err = true) →
    r.1.Mapped st.irp_addr L.irp.size → 0 ≤ irp.Status.toInt → ¬ r.1.Mapped a irp.Information →
    ∃ s', ioctl env ((devicetype, function, ctl_method, access), out, in_buffer) g =
        .fatal ⟨UC_ERR_READ_UNMAPPED⟩ s' ∧
      s'.trace.filterMap Event.freed = [] ∧ s'.trace.filterMap Event.allocated = st.alloc_addr ∧
      s'.guest = r.1
  := by
  intro L st r irp hrun hirp h0 hout
  let s₀ := st.req.ran env (env.MajorFunction IRP_MJ_DEVICE_CONTROL)
  let irp₀ := L.irp.decode (s₀.guest.mem.read st.irp_addr L.irp.size)
  let s₁ := (s₀.load st.irp_addr L.irp.size).2
  have hirp' : s₀.guest.Mapped st.irp_addr L.irp.size := hirp
  have hout' : ¬ s₁.guest.Mapped a irp₀.Information := hout
  have h0' : 0 ≤ irp₀.Status.toInt := h0
  have hpost : ioctlReadBack env ctl_method st s₀ = .error (⟨UC_ERR_READ_UNMAPPED⟩, s₁) := by
    rw [ioctlReadBack_of_mapped env ctl_method st hirp', ioctlOutput_eq, if_pos h0', ha]
    show Req.read a irp₀.Information s₁ >>= _ = _
    rw [Req.read_of_not_mapped hout']
    rfl
  have hio : ioctl env ((devicetype, function, ctl_method, access), out, in_buffer) g =
      .fatal ⟨UC_ERR_READ_UNMAPPED⟩ s₁ := by
    rw [ioctl, if_pos hwin, if_neg hreg]
    dsimp only
    rw [Req.finish_of_absorbed _ _ _ hrun, hpost]
  obtain ⟨hal, -, -⟩ := ioctlStage_allocs env devicetype function ctl_method access out in_buffer g
  exact ⟨s₁, hio, (ioctl_lifecycle env devicetype function ctl_method access out in_buffer g).2 _ _ hio,
    by simp [s₁, s₀, hal, Event.allocated], rfl⟩

/-- A dispatch routine on `x86` that completes a buffered IOCTL with a success status and an
`Information` of `0x10000`, past the mapped memory, without writing a reply: `ioctl` raises
`UC_ERR_READ_UNMAPPED` from its read of the output, and the five blocks it allocated are never
freed. -/
theorem ioctl_output_read_leaks :
  let env : QlWindows BumpHeap := { refWindows .x86 (fun _ => 0x2000) 0x100 with
    run := fun _ g => (completeIrp .w32 0 0x10000 [] g, none) }
  ∃ s', ioctl env ((0x22, 0x800, METHOD_BUFFERED, 0), 4, [1, 2, 3]) (refGuest 0x100 0) =
      .fatal ⟨UC_ERR_READ_UNMAPPED⟩ s' ∧
    s'.trace.filterMap Event.freed = [] ∧
    s'.trace.filterMap Event.allocated = [0x1000, 0x1003, 0x1007, 0x101F, 0x1030] ∧
    s'.guest.heap.live = [0x1030, 0x101F, 0x1007, 0x1003, 0x1000]
  := by
  intro env
  obtain ⟨s', h, hfr, hal, hg⟩ := ioctl_raises_of_output_unmapped env 0x22 0x800 METHOD_BUFFERED 0 4
    [1, 2, 3] (refGuest 0x100 0) rfl (by decide) 0x1030 (by decide) nofun (by decide)
    (by decide) (fun h => absurd (h 0xEFD0 (by decide)) (by decide))
  exact ⟨s', h, hfr, by rw [hal]; decide, by rw [hg]; decide⟩

/-! ### Both requests -/

/-- Every `io_Write` and every `ioctl` that completes, after a normal return of the dispatch
routine or a fault `verify_ret` absorbs and reads of mapped memory after it, passes to
`heap.free` exactly the addresses `heap.alloc` returned, each as often, and all of them after its
last read of guest memory; a rejected request allocates and frees nothing and leaves the guest
as it was; and the heap's live blocks after the request are those before it with what the
dispatch routine added. A request that raises instead, from `verify_ret` or from a read of
unmapped memory, frees nothing. -/
theorem request_frees_allocations :
  (∀ (env : QlWindows H) (in_buffer : List UInt8) (g : Guest H),
    let st := ioWriteStage env in_buffer ⟨g, []⟩
    let g' := (env.run (env.MajorFunction IRP_MJ_WRITE) st.req.guest).1
    (∀ r s', ioWrite env in_buffer g = .done r s' →
      (↑(s'.trace.filterMap Event.freed) : Multiset Nat) = ↑(s'.trace.filterMap Event.allocated) ∧
        Trace.FreesAfterReads s'.trace ∧
        (r.1 = false → s'.trace = [] ∧ s'.guest = g) ∧
        (r.1 = true → ∀ D, env.heap.live g'.heap = env.heap.live st.req.guest.heap + D →
          env.heap.live s'.guest.heap = env.heap.live g.heap + D)) ∧
    ∀ err s', ioWrite env in_buffer g = .fatal err s' → s'.trace.filterMap Event.freed = []) ∧
  (∀ (env : QlWindows H) (devicetype function ctl_method access out : Nat)
      (in_buffer : List UInt8) (g : Guest H),
    let st := ioctlStage env devicetype function ctl_method access out in_buffer ⟨g, []⟩
    let g' := (env.run (env.MajorFunction IRP_MJ_DEVICE_CONTROL) st.req.guest).1
    (∀ r s', ioctl env ((devicetype, function, ctl_method, access), out, in_buffer) g = .done r s' →
      (↑(s'.trace.filterMap Event.freed) : Multiset Nat) = ↑(s'.trace.filterMap Event.allocated) ∧
        Trace.FreesAfterReads s'.trace ∧
        (r = .rejected ∨ r = .unsupported → s'.trace = [] ∧ s'.guest = g) ∧
        (r ≠ .rejected → r ≠ .unsupported → ∀ D,
          env.heap.live g'.heap = env.heap.live st.req.guest.heap + D →
          env.heap.live s'.guest.heap = env.heap.live g.heap + D)) ∧
    ∀ err s', ioctl env ((devicetype, function, ctl_method, access), out, in_buffer) g =
      .fatal err s' → s'.trace.filterMap Event.freed = [])
  := ⟨ioWrite_lifecycle, ioctl_lifecycle⟩

/-- A buffered write of three bytes and a buffered IOCTL on `x86` free what they allocate. -/
theorem request_frees_allocations_x86 :
  let env := refWindows .x86 (fun _ => 0x2000) 0x100
  let w := ioWrite env [1, 2, 3] (refGuest 0x100 DO_BUFFERED_IO)
  let c := ioctl env ((0x22, 0x800, METHOD_BUFFERED, 0), 4, [1, 2, 3]) (refGuest 0x100 0)
  (w = .done (true, some 0) w.final ∧
    (↑(w.final.trace.filterMap Event.freed) : Multiset Nat) =
      ↑(w.final.trace.filterMap Event.allocated)) ∧
  (c = .done (.completed 0 0 []) c.final ∧
    (↑(c.final.trace.filterMap Event.freed) : Multiset Nat) =
      ↑(c.final.trace.filterMap Event.allocated))
  := by
  intro env w c
  have hw : w = .done (true, some 0) w.final := Outcome.eq_done_of_result (by decide)
  have hc : c = .done (.completed 0 0 []) c.final := Outcome.eq_done_of_result (by decide)
  exact ⟨⟨hw, ((request_frees_allocations.1 _ _ _).1 _ _ hw).1⟩,
    ⟨hc, ((request_frees_allocations.2 _ _ _ _ _ _ _ _).1 _ _ hc).1⟩⟩

end QilingOs
