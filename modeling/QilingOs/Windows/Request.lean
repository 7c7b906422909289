import QilingOs.Windows.Structs

/-!
# Device requests

`io_Write` and `ioctl` emulate the I/O manager handing a request to a loaded driver. Both run
against the same collaborators (`QlWindows`): the architecture and OS of the Qiling instance,
the loader's driver object (its `MajorFunction` table and the address of its device object),
the structure layouts, the guest heap `ql.os.heap`, the CPU emulator `ql.run`, which executes
the dispatch routine from an entry point until it returns or faults, and `verify_ret`, which
absorbs a fault or raises it again.

A request works on the guest (`Guest`: memory, the addresses the emulator has mapped, heap and
the parameters the calling convention has set up) and records what it does in a trace of events:
every `heap.alloc` and `heap.free`, every read and write of guest memory, and the transfer of
control to the driver. The events are those of the request's own code; what the dispatch
routine does happens inside `Event.run`. `ql.mem.read` raises `UcError` on a range with an
unmapped byte (`Req.read`), and nothing in `io_Write` or `ioctl` catches it but the `try` around
`ql.run`; a request ends either with its result or with the `UcError` it raised (`Outcome`).

The heap is any allocator: `alloc` returns some address, and `live` is the multiset of the
addresses allocated and not yet freed. That the heap gave a request pairwise disjoint blocks of
the guest's address space is a property of a run (`Trace.AllocOk`).
-/

namespace QilingOs

/-- A CPU fault `UcError`, by its error number. -/
structure UcError where
  errno : Nat
  deriving DecidableEq, Repr

/-- `UC_ERR_READ_UNMAPPED`, the error of a read of unmapped memory. -/
def UC_ERR_READ_UNMAPPED : Nat := 6

/-- The guest heap `ql.os.heap`: `alloc(size)` returns an address, `free(address)` releases the
block allocated at it, and `live` is the multiset of the addresses allocated and not freed. -/
structure QlHeap (H : Type) where
  alloc : H → Nat → Nat × H
  free : H → Nat → H
  live : H → Multiset Nat
  live_alloc : ∀ h n, live (alloc h n).2 = (alloc h n).1 ::ₘ live h
  live_free : ∀ h a, live (free h a) = (live h).erase a

/-- The guest as a request sees it: memory, whether the emulator has mapped each address, the
heap, and the parameters of the next call. -/
structure Guest (H : Type) where
  mem : Mem
  mapped : Nat → Bool
  heap : H
  params : List Nat

/-- The `size` bytes from `address` are mapped. -/
def Guest.Mapped {H : Type} (g : Guest H) (address size : Nat) : Prop :=
  ∀ i < size, g.mapped (address + i) = true

instance {H : Type} (g : Guest H) (address size : Nat) : Decidable (g.Mapped address size) :=
  inferInstanceAs (Decidable (∀ i, i < size → _))

/-- The collaborators of a device request. `MajorFunction` and `DeviceObject` are the fields of
`ql.loader.driver_object`; `run entry g` runs the guest from `entry` (`ql.run(begin=entry)`) and
gives the guest it stops in and the fault it raised, if any; `verifyRet g err` is whether
`verify_ret(ql, err)` returns rather than raising again. -/
structure QlWindows (H : Type) where
  archtype : QlArch
  ostype : QlOs
  MajorFunction : Nat → Nat
  DeviceObject : Nat
  layout : (w : WordSize) → Layout w
  heap : QlHeap H
  run : Nat → Guest H → Guest H × Option UcError
  verifyRet : Guest H → UcError → Bool

/-- What the code of a request does to the guest. -/
inductive Event where
  | alloc (size address : Nat)
  | free (address : Nat)
  | read (address size : Nat)
  | write (address : Nat) (data : List UInt8)
  | run (entry : Nat)
  deriving DecidableEq, Repr

/-- A request in progress: the guest and the events so far. -/
structure Req (H : Type) where
  guest : Guest H
  trace : List Event

variable {H : Type}

/-! ### Operations -/

/-- `heap.alloc(size)`. -/
def Req.alloc (hp : QlHeap H) (size : Nat) (s : Req H) : Nat × Req H :=
  let (address, heap) := hp.alloc s.guest.heap size
  (address, { guest := { s.guest with heap }, trace := s.trace ++ [.alloc size address] })

/-- `heap.free(address)`. -/
def Req.free (hp : QlHeap H) (address : Nat) (s : Req H) : Req H :=
  { guest := { s.guest with heap := hp.free s.guest.heap address },
    trace := s.trace ++ [.free address] }

/-- `for addr in alloc_addr: heap.free(addr)`. -/
def Req.freeAll (hp : QlHeap H) (s : Req H) : List Nat → Req H
  | [] => s
  | a :: as => (s.free hp a).freeAll hp as

/-- The `size` bytes from `address`, with their read recorded: what `ql.mem.read` gives on a
mapped range. -/
def Req.load (address size : Nat) (s : Req H) : List UInt8 × Req H :=
  (s.guest.mem.read address size, { s with trace := s.trace ++ [.read address size] })

/-- `ql.mem.read(address, size)`: on a range with an unmapped byte it raises
`UcError(UC_ERR_READ_UNMAPPED)`, and the request is as it was. -/
def Req.read (address size : Nat) (s : Req H) : Except (UcError × Req H) (List UInt8 × Req H) :=
  if s.guest.Mapped address size then .ok (s.load address size)
  else .error (⟨UC_ERR_READ_UNMAPPED⟩, s)

/-- `ql.mem.write(address, data)`. -/
def Req.write (address : Nat) (data : List UInt8) (s : Req H) : Req H :=
  { guest := { s.guest with mem := s.guest.mem.write address data },
    trace := s.trace ++ [.write address data] }

/-- `ql.os.fcall.writeParams(...)` with pointer parameters. -/
def Req.writeParams (params : List Nat) (s : Req H) : Req H :=
  { s with guest := { s.guest with params } }

/-- `ql.run(begin=entry)`, with a fault passed to `verify_ret`: the request goes on after a
normal return or an absorbed fault, and ends with any other fault. -/
def Req.dispatch (env : QlWindows H) (entry : Nat) (s : Req H) :
    Except (UcError × Req H) (Req H) :=
  let (g, fault) := env.run entry s.guest
  let s : Req H := { guest := g, trace := s.trace ++ [.run entry] }
  match fault with
  | none => .ok s
  | some err => if env.verifyRet g err then .ok s else .error (err, s)

/-- `build_mdl(buffer_size, data)`, of `io_Write` and `ioctl` alike: an MDL describing a fresh
block of `buffer_size` bytes, into which `data` is copied when it is not empty. Gives the MDL
and the address of its block, which `build_mdl` appends to `alloc_addr`. -/
def buildMdl (env : QlWindows H) (s : Req H) (buffer_size : Nat) (data : List UInt8) :
    Mdl × Req H × Nat :=
  let (mapped_address, s) := s.alloc env.heap buffer_size
  let mdl : Mdl :=
    { MappedSystemVa := mapped_address, StartVa := mapped_address, ByteOffset := 0,
      ByteCount := BitVec.ofNat 32 buffer_size }
  let s := if data ≠ [] then s.write mapped_address (data.take buffer_size) else s
  (mdl, s, mapped_address)

/-- How a request ends: with its result, or with the `UcError` it raised, a fault of the dispatch
routine that `verify_ret` raised again or a read of unmapped memory. -/
inductive Outcome (H α : Type) where
  | done (result : α) (final : Req H)
  | fatal (err : UcError) (final : Req H)

/-- The request as it ended. -/
def Outcome.final {α : Type} : Outcome H α → Req H
  | .done _ s => s
  | .fatal _ s => s

/-- The result of a request that completed. -/
def Outcome.result {α : Type} : Outcome H α → Option α
  | .done r _ => some r
  | .fatal _ _ => none

theorem Outcome.eq_done_of_result {α : Type} {o : Outcome H α} {r : α} (h : o.result = some r) :
  o = .done r o.final
  := by
  cases o <;> simp_all [Outcome.result, Outcome.final]

/-- The end of `io_Write` and of `ioctl`, from the call of the dispatch routine on: `ql.run` with
`verify_ret` around it; then `post`, which reads back what the routine left; and, when both
return, `heap.free` of every address of `alloc_addr` and the result `result` makes of what `post`
read. A `UcError` that either raises ends the request. -/
def Req.finish {α β : Type} (env : QlWindows H) (entry : Nat)
    (post : Req H → Except (UcError × Req H) (α × Req H)) (result : α → β) (alloc_addr : List Nat)
    (s : Req H) : Outcome H β :=
  match s.dispatch env entry >>= post with
  | .error (err, s) => .fatal err s
  | .ok (a, s) => .done (result a) (s.freeAll env.heap alloc_addr)

/-! ### Traces -/

/-- The block an allocation returned. -/
def Event.block : Event → Option Block
  | .alloc size address => some ⟨address, size⟩
  | _ => none

/-- The address an allocation returned. -/
def Event.allocated : Event → Option Nat
  | .alloc _ address => some address
  | _ => none

/-- The address a `heap.free` released. -/
def Event.freed : Event → Option Nat
  | .free address => some address
  | _ => none

/-- The event is a `heap.free`. -/
def Event.IsFree : Event → Prop
  | .free _ => True
  | _ => False

/-- The event is a read of guest memory. -/
def Event.IsRead : Event → Prop
  | .read .. => True
  | _ => False

/-- The event allocates or frees. -/
def Event.IsHeap : Event → Prop
  | .alloc .. | .free _ => True
  | _ => False

theorem Event.not_isFree_of_isRead {e : Event} (h : e.IsRead) : ¬ e.IsFree := by
  cases e <;> simp_all [Event.IsRead, Event.IsFree]

/-- A trace without a `heap.free` frees nothing. -/
theorem Trace.freed_eq_nil {t : List Event} (h : ∀ e ∈ t, ¬ e.IsFree) :
  t.filterMap Event.freed = []
  := List.filterMap_eq_nil_iff.mpr fun e he => by
    cases e <;> first | rfl | exact absurd trivial (h _ he)

/-- The heap gave the allocations of the trace pairwise disjoint blocks in the address space
of a `bits`-bit guest. -/
def Trace.AllocOk (bits : Nat) (t : List Event) : Prop :=
  (t.filterMap Event.block).Pairwise Block.Disjoint ∧
    ∀ b ∈ t.filterMap Event.block, b.InSpace bits

instance (bits : Nat) (t : List Event) : Decidable (Trace.AllocOk bits t) :=
  inferInstanceAs (Decidable (_ ∧ _))

/-- Every `heap.free` of the trace comes after every read of guest memory. -/
def Trace.FreesAfterReads (t : List Event) : Prop :=
  ∃ t₁ t₂, t = t₁ ++ t₂ ∧ (∀ e ∈ t₁, ¬ e.IsFree) ∧ ∀ e ∈ t₂, ¬ e.IsRead

/-- `s'` is `s` after reads of guest memory and nothing else. -/
def Req.AfterReads (s s' : Req H) : Prop :=
  s'.guest = s.guest ∧ ∃ t, s'.trace = s.trace ++ t ∧ ∀ e ∈ t, e.IsRead

/-- Where a step left the request, whether it returned or raised. -/
def Req.after {α : Type} : Except (UcError × Req H) (α × Req H) → Req H
  | .ok r => r.2
  | .error e => e.2

/-- Any selection of a trace's blocks, in any order, is pairwise disjoint. -/
theorem Trace.AllocOk.pairwise_of_subperm {bits : Nat} {t : List Event} (h : Trace.AllocOk bits t)
    {bs : List Block} (hs : bs.Subperm (t.filterMap Event.block)) :
  bs.Pairwise Block.Disjoint
  := by
  obtain ⟨l, hp, hl⟩ := hs
  exact (h.1.sublist hl).perm hp Block.Disjoint.symm

/-- Every address the heap returned fits the address space. -/
theorem Trace.AllocOk.lt_of_allocated {bits : Nat} {t : List Event} (h : Trace.AllocOk bits t)
    {a : Nat} (ha : a ∈ t.filterMap Event.allocated) :
  a < 2 ^ bits
  := by
  obtain ⟨e, he, hea⟩ := List.mem_filterMap.mp ha
  cases e <;> simp only [Event.allocated, reduceCtorEq, Option.some.injEq] at hea
  subst hea
  exact (h.2 _ (List.mem_filterMap.mpr ⟨_, he, rfl⟩)).1

/-! ### Lemmas on the operations -/

@[simp]
theorem Req.alloc_fst (hp : QlHeap H) (size : Nat) (s : Req H) :
  (s.alloc hp size).1 = (hp.alloc s.guest.heap size).1
  := rfl

@[simp]
theorem Req.mem_alloc (hp : QlHeap H) (size : Nat) (s : Req H) :
  (s.alloc hp size).2.guest.mem = s.guest.mem
  := rfl

@[simp]
theorem Req.params_alloc (hp : QlHeap H) (size : Nat) (s : Req H) :
  (s.alloc hp size).2.guest.params = s.guest.params
  := rfl

@[simp]
theorem Req.trace_alloc (hp : QlHeap H) (size : Nat) (s : Req H) :
  (s.alloc hp size).2.trace = s.trace ++ [.alloc size (hp.alloc s.guest.heap size).1]
  := rfl

@[simp]
theorem Req.heap_alloc (hp : QlHeap H) (size : Nat) (s : Req H) :
  (s.alloc hp size).2.guest.heap = (hp.alloc s.guest.heap size).2
  := rfl

@[simp]
theorem Req.mem_write (address : Nat) (data : List UInt8) (s : Req H) :
  (s.write address data).guest.mem = s.guest.mem.write address data
  := rfl

@[simp]
theorem Req.heap_write (address : Nat) (data : List UInt8) (s : Req H) :
  (s.write address data).guest.heap = s.guest.heap
  := rfl

@[simp]
theorem Req.params_write (address : Nat) (data : List UInt8) (s : Req H) :
  (s.write address data).guest.params = s.guest.params
  := rfl

@[simp]
theorem Req.trace_write (address : Nat) (data : List UInt8) (s : Req H) :
  (s.write address data).trace = s.trace ++ [.write address data]
  := rfl

@[simp]
theorem Req.load_fst (address size : Nat) (s : Req H) :
  (s.load address size).1 = s.guest.mem.read address size
  := rfl

@[simp]
theorem Req.guest_load (address size : Nat) (s : Req H) :
  (s.load address size).2.guest = s.guest
  := rfl

@[simp]
theorem Req.trace_load (address size : Nat) (s : Req H) :
  (s.load address size).2.trace = s.trace ++ [.read address size]
  := rfl

theorem Req.read_of_mapped {address size : Nat} {s : Req H} (h : s.guest.Mapped address size) :
  s.read address size = .ok (s.load address size)
  := if_pos h

theorem Req.read_of_not_mapped {address size : Nat} {s : Req H}
    (h : ¬ s.guest.Mapped address size) :
  s.read address size = .error (⟨UC_ERR_READ_UNMAPPED⟩, s)
  := if_neg h

@[simp]
theorem Req.mem_writeParams (params : List Nat) (s : Req H) :
  (s.writeParams params).guest.mem = s.guest.mem
  := rfl

@[simp]
theorem Req.heap_writeParams (params : List Nat) (s : Req H) :
  (s.writeParams params).guest.heap = s.guest.heap
  := rfl

@[simp]
theorem Req.params_writeParams (params : List Nat) (s : Req H) :
  (s.writeParams params).guest.params = params
  := rfl

@[simp]
theorem Req.trace_writeParams (params : List Nat) (s : Req H) :
  (s.writeParams params).trace = s.trace
  := rfl

/-- Freeing a list of addresses appends one `free` per address and erases each from `live`. -/
theorem Req.freeAll_spec (hp : QlHeap H) :
  ∀ (s : Req H) (as : List Nat),
    (s.freeAll hp as).trace = s.trace ++ as.map Event.free ∧
      hp.live (s.freeAll hp as).guest.heap = hp.live s.guest.heap - ↑as ∧
      (s.freeAll hp as).guest.mem = s.guest.mem
  | s, [] => by simp [Req.freeAll]
  | s, a :: as => by
    obtain ⟨ht, hl, hm⟩ := Req.freeAll_spec hp (s.free hp a) as
    rw [Req.freeAll]
    refine ⟨by rw [ht]; simp [Req.free], ?_, hm⟩
    rw [hl, Req.free, hp.live_free, ← Multiset.cons_coe, Multiset.sub_cons]

/-- What `freeAll` frees. -/
theorem Trace.freed_frees (as : List Nat) : (as.map Event.free).filterMap Event.freed = as := by
  induction as <;> simp_all [Event.freed]

/-- `freeAll` allocates nothing. -/
theorem Trace.allocated_frees (as : List Nat) : (as.map Event.free).filterMap Event.allocated = [] :=
  List.filterMap_eq_nil_iff.mpr (by simp [Event.allocated])

/-- Reads allocate and free nothing. -/
theorem Trace.filterMap_of_reads {t : List Event} (h : ∀ e ∈ t, e.IsRead) :
  t.filterMap Event.freed = [] ∧ t.filterMap Event.allocated = []
  := by
  refine ⟨List.filterMap_eq_nil_iff.mpr fun e he => ?_, List.filterMap_eq_nil_iff.mpr fun e he => ?_⟩ <;>
  · have := h e he
    cases e <;> simp_all [Event.IsRead, Event.freed, Event.allocated]

/-- The request where `ql.run` stopped: the guest the routine left, and one `run` event more. -/
def Req.ran (env : QlWindows H) (entry : Nat) (s : Req H) : Req H :=
  { guest := (env.run entry s.guest).1, trace := s.trace ++ [.run entry] }

@[simp]
theorem Req.guest_ran (env : QlWindows H) (entry : Nat) (s : Req H) :
  (s.ran env entry).guest = (env.run entry s.guest).1
  := rfl

@[simp]
theorem Req.trace_ran (env : QlWindows H) (entry : Nat) (s : Req H) :
  (s.ran env entry).trace = s.trace ++ [.run entry]
  := rfl

/-- `dispatch` either goes on or ends where `ql.run` stopped. -/
theorem Req.dispatch_spec (env : QlWindows H) (entry : Nat) (s : Req H) :
  s.dispatch env entry = .ok (s.ran env entry) ∨
    ∃ err, s.dispatch env entry = .error (err, s.ran env entry)
  := by
  rcases h : env.run entry s.guest with ⟨g, _ | err⟩
  · exact .inl (by simp [Req.dispatch, Req.ran, h])
  · by_cases hv : env.verifyRet g err <;> simp [Req.dispatch, Req.ran, h, hv]

/-- `dispatch` goes on when the routine returns or `verify_ret` absorbs its fault. -/
theorem Req.dispatch_of_absorbed {env : QlWindows H} {entry : Nat} {s : Req H}
    (h : ∀ err, (env.run entry s.guest).2 = some err →
      env.verifyRet (env.run entry s.guest).1 err = true) :
  s.dispatch env entry = .ok (s.ran env entry)
  := by
  rcases hr : env.run entry s.guest with ⟨g, _ | err⟩
  · simp [Req.dispatch, Req.ran, hr]
  · have hv := h err (by rw [hr])
    rw [hr] at hv
    simp [Req.dispatch, Req.ran, hr, hv]

/-! ### Reads -/

@[simp]
theorem Req.after_ok {α : Type} (r : α × Req H) : Req.after (.ok r) = r.2 := rfl

@[simp]
theorem Req.after_error {α : Type} (e : UcError × Req H) :
  Req.after (.error e : Except (UcError × Req H) (α × Req H)) = e.2
  := rfl

theorem Req.AfterReads.refl (s : Req H) : s.AfterReads s :=
  ⟨rfl, [], (List.append_nil _).symm, nofun⟩

theorem Req.AfterReads.trans {s₁ s₂ s₃ : Req H} (h₁ : s₁.AfterReads s₂) (h₂ : s₂.AfterReads s₃) :
  s₁.AfterReads s₃
  := by
  obtain ⟨hg₁, t₁, ht₁, hr₁⟩ := h₁
  obtain ⟨hg₂, t₂, ht₂, hr₂⟩ := h₂
  exact ⟨hg₂.trans hg₁, t₁ ++ t₂, by rw [ht₂, ht₁, List.append_assoc],
    fun e he => (List.mem_append.mp he).elim (hr₁ e) (hr₂ e)⟩

/-- A read only reads, whether it returns or raises. -/
theorem Req.afterReads_read (address size : Nat) (s : Req H) :
  s.AfterReads (Req.after (s.read address size))
  := by
  by_cases h : s.guest.Mapped address size
  · rw [Req.read_of_mapped h]
    exact ⟨rfl, [.read address size], rfl, by simp [Event.IsRead]⟩
  · rw [Req.read_of_not_mapped h]
    exact .refl s

/-- Two steps that only read make one. -/
theorem Req.afterReads_bind {α β : Type} {s : Req H} {c : Except (UcError × Req H) (α × Req H)}
    {f : α × Req H → Except (UcError × Req H) (β × Req H)} (hc : s.AfterReads (Req.after c))
    (hf : ∀ r, c = .ok r → r.2.AfterReads (Req.after (f r))) :
  s.AfterReads (Req.after (c >>= f))
  := by
  cases c with
  | error e => exact hc
  | ok r => exact hc.trans (hf r rfl)

/-- Reads allocate and free nothing. -/
theorem Req.AfterReads.filterMap {s s' : Req H} (h : s.AfterReads s') :
  ∃ t, s'.trace = s.trace ++ t ∧ t.filterMap Event.freed = [] ∧ t.filterMap Event.allocated = [] ∧
    ∀ e ∈ t, ¬ e.IsFree
  := by
  obtain ⟨-, t, ht, hrd⟩ := h
  exact ⟨t, ht, (Trace.filterMap_of_reads hrd).1, (Trace.filterMap_of_reads hrd).2,
    fun e he => Event.not_isFree_of_isRead (hrd e he)⟩

/-! ### Finishing a request -/

/-- How `finish` ends: `post` returns from where the routine stopped and every address of
`alloc_addr` is freed after it, or a `UcError` is raised, by `verify_ret` or by `post`. -/
theorem Req.finish_cases {α β : Type} (env : QlWindows H) (entry : Nat)
    (post : Req H → Except (UcError × Req H) (α × Req H)) (result : α → β) (alloc_addr : List Nat)
    (s : Req H) :
  (∃ a s₁, post (s.ran env entry) = .ok (a, s₁) ∧
      s.finish env entry post result alloc_addr = .done (result a) (s₁.freeAll env.heap alloc_addr)) ∨
    ∃ err s₁, s.finish env entry post result alloc_addr = .fatal err s₁ ∧
      (s₁ = s.ran env entry ∨ post (s.ran env entry) = .error (err, s₁))
  := by
  have hbind : Except.ok (s.ran env entry) >>= post = post (s.ran env entry) := rfl
  rcases Req.dispatch_spec env entry s with hd | ⟨err, hd⟩
  · rcases hp : post (s.ran env entry) with ⟨err, s₁⟩ | ⟨a, s₁⟩
    · exact .inr ⟨err, s₁, by rw [Req.finish, hd, hbind, hp], .inr rfl⟩
    · exact .inl ⟨a, s₁, rfl, by rw [Req.finish, hd, hbind, hp]⟩
  · exact .inr ⟨err, _, by rw [Req.finish, hd]; rfl, .inl rfl⟩

/-- When the routine returns or `verify_ret` absorbs its fault, `finish` ends as `post` does from
where the routine stopped. -/
theorem Req.finish_of_absorbed {α β : Type} {env : QlWindows H} {entry : Nat}
    (post : Req H → Except (UcError × Req H) (α × Req H)) (result : α → β) (alloc_addr : List Nat)
    {s : Req H}
    (h : ∀ err, (env.run entry s.guest).2 = some err →
      env.verifyRet (env.run entry s.guest).1 err = true) :
  s.finish env entry post result alloc_addr =
    match post (s.ran env entry) with
    | .error (err, s) => .fatal err s
    | .ok (a, s) => .done (result a) (s.freeAll env.heap alloc_addr)
  := by
  rw [Req.finish, Req.dispatch_of_absorbed h]
  rfl

section Finish

variable {α β : Type} {env : QlWindows H} {entry : Nat}
  {post : Req H → Except (UcError × Req H) (α × Req H)} {result : α → β} {alloc_addr : List Nat}
  {s : Req H} (hpost : ∀ s₁ : Req H, s₁.AfterReads (Req.after (post s₁)))
  (hfree : ∀ e ∈ s.trace, ¬ e.IsFree)
include hpost hfree

/-- A request that finishes frees `alloc_addr`, after all its reads, and allocates nothing after
the routine; its heap is the one the routine left, with those addresses freed. -/
theorem Req.finish_done {r : β} {s' : Req H} (h : s.finish env entry post result alloc_addr = .done r s') :
  (∃ a, r = result a) ∧ s'.trace.filterMap Event.freed = alloc_addr ∧
    s'.trace.filterMap Event.allocated = s.trace.filterMap Event.allocated ∧
    Trace.FreesAfterReads s'.trace ∧
    env.heap.live s'.guest.heap = env.heap.live (env.run entry s.guest).1.heap - ↑alloc_addr
  := by
  rcases Req.finish_cases env entry post result alloc_addr s with ⟨a, s₁, hp, hf⟩ | ⟨_, _, hf, -⟩
  · obtain ⟨rfl, rfl⟩ := Outcome.done.inj (hf.symm.trans h)
    have hr : (s.ran env entry).AfterReads s₁ := by simpa [hp] using hpost (s.ran env entry)
    obtain ⟨t, ht, htf, hta, htn⟩ := hr.filterMap
    obtain ⟨hft, hfl, -⟩ := Req.freeAll_spec env.heap s₁ alloc_addr
    refine ⟨⟨a, rfl⟩, ?_, ?_, ⟨s₁.trace, _, hft, ?_, ?_⟩, by rw [hfl, hr.1, Req.guest_ran]⟩
    · rw [hft, List.filterMap_append, Trace.freed_frees, ht, Req.trace_ran]
      simp [Trace.freed_eq_nil hfree, htf, Event.freed]
    · rw [hft, List.filterMap_append, Trace.allocated_frees, ht, Req.trace_ran]
      simp [hta, Event.allocated]
    · simp only [ht, Req.trace_ran, List.mem_append, List.mem_singleton]
      rintro e ((he | rfl) | he)
      exacts [hfree e he, id, htn e he]
    · simp [Event.IsRead]
  · cases hf.symm.trans h

/-- A request that raises frees nothing and allocates nothing after the routine; its heap is the
one the routine left. -/
theorem Req.finish_fatal {err : UcError} {s' : Req H}
    (h : s.finish env entry post result alloc_addr = .fatal err s') :
  s'.trace.filterMap Event.freed = [] ∧
    s'.trace.filterMap Event.allocated = s.trace.filterMap Event.allocated ∧
    s'.guest.heap = (env.run entry s.guest).1.heap
  := by
  rcases Req.finish_cases env entry post result alloc_addr s with ⟨_, _, -, hf⟩ | ⟨_, s₁, hf, hs₁⟩
  · cases hf.symm.trans h
  obtain ⟨-, rfl⟩ := Outcome.fatal.inj (hf.symm.trans h)
  have hr : (s.ran env entry).AfterReads s₁ := by
    rcases hs₁ with rfl | hp
    · exact .refl _
    · simpa [hp] using hpost (s.ran env entry)
  obtain ⟨t, ht, htf, hta, -⟩ := hr.filterMap
  refine ⟨?_, ?_, by rw [hr.1, Req.guest_ran]⟩
  · simp [ht, Trace.freed_eq_nil hfree, htf, Event.freed]
  · simp [ht, hta, Event.allocated]

end Finish

end QilingOs
