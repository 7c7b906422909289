import Mathlib

/-!
# Guest memory

The guest memory accessor `ql.mem` reads and writes bytes at guest addresses; `Mem` is the
byte at every address, `Mem.read a n` the `n` bytes from `a`, and `Mem.write a d` the memory
after writing `d` at `a`. `Mem.writeAll` performs a list of writes in order. Reading a range
that no later write touches gives what was there before (`Mem.read_writeAll_of_disjoint`), and
after writes to pairwise disjoint ranges every range reads back what was written to it
(`Mem.read_writeAll_of_mem`). Ranges are disjoint when one of them is empty or they do not
overlap; heap blocks are ranges.

`leBytes w n` and `ofLeBytes` are the `w` little-endian bytes of `n` and the number with the
given little-endian bytes, as `ql.pack` and `ql.unpack` compute them on a little-endian guest.

`QlArch` and `QlOs` are the architectures and operating systems of `QL_ARCH` and `QL_OS`, and
`QlArch.archbit` is the word size `ql.archbit` of each architecture.
-/

namespace QilingOs

/-! ### Architectures -/

/-- The architectures `QL_ARCH` names. -/
inductive QlArch where
  | x86
  | x8664
  | arm
  | armThumb
  | arm64
  | mips
  | a8086
  | cortexM
  deriving DecidableEq, Repr

/-- `ql.archbit`, the word size of an architecture in bits. -/
def QlArch.archbit : QlArch → Nat
  | .a8086 => 16
  | .x8664 | .arm64 => 64
  | _ => 32

/-- The operating systems `QL_OS` names. -/
inductive QlOs where
  | linux
  | freebsd
  | macos
  | windows
  | uefi
  | dos
  | qnx
  | mcu
  deriving DecidableEq, Repr

/-! ### Ranges -/

/-- The ranges `[a, a + n)` and `[b, b + m)` share no address. -/
def RangeDisjoint (a n b m : Nat) : Prop :=
  n = 0 ∨ m = 0 ∨ a + n ≤ b ∨ b + m ≤ a

instance (a n b m : Nat) : Decidable (RangeDisjoint a n b m) :=
  inferInstanceAs (Decidable (_ ∨ _))

theorem RangeDisjoint.symm {a n b m : Nat} (h : RangeDisjoint a n b m) :
  RangeDisjoint b m a n
  := by
  unfold RangeDisjoint at *
  omega

/-- Subranges from the same starts of disjoint ranges are disjoint. -/
theorem RangeDisjoint.mono {a n b m n' m' : Nat} (h : RangeDisjoint a n b m)
    (hn : n' ≤ n) (hm : m' ≤ m) :
  RangeDisjoint a n' b m'
  := by
  unfold RangeDisjoint at *
  omega

/-- A block of the guest heap: `size` bytes from `address`. -/
structure Block where
  address : Nat
  size : Nat
  deriving DecidableEq, Repr

/-- Two blocks share no byte. -/
def Block.Disjoint (b c : Block) : Prop :=
  RangeDisjoint b.address b.size c.address c.size

/-- The block lies in the address space of a `bits`-bit guest. -/
def Block.InSpace (bits : Nat) (b : Block) : Prop :=
  b.address < 2 ^ bits ∧ b.address + b.size ≤ 2 ^ bits

instance (b c : Block) : Decidable (b.Disjoint c) := inferInstanceAs (Decidable (RangeDisjoint ..))

instance (bits : Nat) (b : Block) : Decidable (b.InSpace bits) := inferInstanceAs (Decidable (_ ∧ _))

/-! ### Memory -/

/-- Guest memory: the byte at every address. -/
def Mem : Type := Nat → UInt8

/-- `ql.mem.read(address, size)`. -/
def Mem.read (m : Mem) (address size : Nat) : List UInt8 :=
  (List.range size).map fun i => m (address + i)

/-- `ql.mem.write(address, data)`. -/
def Mem.write (m : Mem) (address : Nat) (data : List UInt8) : Mem :=
  fun a => if address ≤ a ∧ a < address + data.length then data.getD (a - address) 0 else m a

/-- The writes `ws`, first to last. -/
def Mem.writeAll (m : Mem) : List (Nat × List UInt8) → Mem
  | [] => m
  | (a, d) :: ws => (m.write a d).writeAll ws

@[simp]
theorem Mem.length_read (m : Mem) (address size : Nat) : (m.read address size).length = size := by
  simp [Mem.read]

@[simp]
theorem Mem.read_zero (m : Mem) (address : Nat) : m.read address 0 = [] := rfl

/-- Reading `n + k` bytes reads `n` bytes, then `k` more. -/
theorem Mem.read_add (m : Mem) (address n k : Nat) :
  m.read address (n + k) = m.read address n ++ m.read (address + n) k
  := by
  simp only [Mem.read, List.range_add, List.map_append, List.map_map]
  congr 1
  exact List.map_congr_left fun i _ => by simp [Nat.add_assoc]

/-- A write reads back. -/
theorem Mem.read_write_self (m : Mem) (address : Nat) (data : List UInt8) :
  (m.write address data).read address data.length = data
  := by
  apply List.ext_getElem (by simp)
  intro i h _
  simp only [Mem.length_read] at h
  simp [Mem.read, Mem.write, h]

/-- A write leaves every range disjoint from it as it was. -/
theorem Mem.read_write_of_disjoint {m : Mem} {a n b : Nat} {data : List UInt8}
    (h : RangeDisjoint a n b data.length) :
  (m.write b data).read a n = m.read a n
  := by
  refine List.map_congr_left fun i hi => ?_
  rw [List.mem_range] at hi
  unfold RangeDisjoint at h
  simp only [Mem.write]
  rw [if_neg (by omega)]

theorem Mem.read_writeAll_of_disjoint {a n : Nat} :
  ∀ {m : Mem} {ws : List (Nat × List UInt8)}, (∀ w ∈ ws, RangeDisjoint a n w.1 w.2.length) →
    (m.writeAll ws).read a n = m.read a n
  | _, [], _ => rfl
  | m, (b, d) :: ws, h => by
    rw [Mem.writeAll, Mem.read_writeAll_of_disjoint fun w hw => h w (List.mem_cons_of_mem _ hw),
      Mem.read_write_of_disjoint (h (b, d) (List.mem_cons_self _ _))]

/-- Writes to pairwise disjoint ranges: reading the range of any of them gives its data. -/
theorem Mem.read_writeAll_of_mem :
  ∀ {m : Mem} {ws : List (Nat × List UInt8)},
    ws.Pairwise (fun w w' => RangeDisjoint w.1 w.2.length w'.1 w'.2.length) →
    ∀ {w}, w ∈ ws → (m.writeAll ws).read w.1 w.2.length = w.2
  | _, [], _, _, hw => absurd hw (List.not_mem_nil _)
  | m, (b, d) :: ws, hws, w, hw => by
    rw [List.pairwise_cons] at hws
    rcases List.mem_cons.mp hw with rfl | hw
    · rw [Mem.writeAll, Mem.read_writeAll_of_disjoint hws.1]
      exact Mem.read_write_self m b d
    · exact Mem.read_writeAll_of_mem hws.2 hw

theorem Block.Disjoint.symm {b c : Block} (h : b.Disjoint c) : c.Disjoint b :=
  RangeDisjoint.symm h

/-- Writes that each fill a prefix of their own block, the blocks pairwise disjoint: reading
the range of any of them gives its data. -/
theorem Mem.read_writeAll_blocks {m : Mem} {ws : List (Block × List UInt8)}
    (hb : (ws.map Prod.fst).Pairwise Block.Disjoint) (hl : ∀ w ∈ ws, w.2.length ≤ w.1.size) :
  ∀ w ∈ ws, (m.writeAll (ws.map fun w => (w.1.address, w.2))).read w.1.address w.2.length = w.2
  := by
  have hpw : (ws.map fun w => (w.1.address, w.2)).Pairwise
      fun w w' => RangeDisjoint w.1 w.2.length w'.1 w'.2.length := by
    rw [List.pairwise_map]
    rw [List.pairwise_map] at hb
    exact hb.imp_of_mem fun {w w'} hw hw' h => h.mono (hl w hw) (hl w' hw')
  exact fun w hw => Mem.read_writeAll_of_mem hpw (List.mem_map_of_mem _ hw)

/-- Writes into blocks disjoint from `b` leave what `b` holds as it was. -/
theorem Mem.read_writeAll_of_block_disjoint {m : Mem} {ws : List (Block × List UInt8)}
    {b : Block} (hb : ∀ w ∈ ws, b.Disjoint w.1) (hl : ∀ w ∈ ws, w.2.length ≤ w.1.size)
    {n : Nat} (hn : n ≤ b.size) :
  (m.writeAll (ws.map fun w => (w.1.address, w.2))).read b.address n = m.read b.address n
  := by
  refine Mem.read_writeAll_of_disjoint fun _ hmem => ?_
  obtain ⟨w, hw, rfl⟩ := List.mem_map.mp hmem
  exact (hb w hw).mono hn (hl w hw)

/-! ### Little-endian words -/

/-- The `w` little-endian bytes of `n`; bits above `8 * w` are dropped. -/
def leBytes : Nat → Nat → List UInt8
  | 0, _ => []
  | w + 1, n => UInt8.ofNat (n % 256) :: leBytes w (n / 256)

/-- The number with the little-endian bytes `bs`. -/
def ofLeBytes : List UInt8 → Nat
  | [] => 0
  | b :: bs => b.toNat + 256 * ofLeBytes bs

@[simp]
theorem length_leBytes (w n : Nat) : (leBytes w n).length = w := by
  induction w generalizing n <;> simp [leBytes, *]

theorem ofLeBytes_leBytes (w n : Nat) : ofLeBytes (leBytes w n) = n % 256 ^ w := by
  induction w generalizing n with
  | zero => simp [leBytes, ofLeBytes, Nat.mod_one]
  | succ w ih =>
    have hb : (UInt8.ofNat (n % 256)).toNat = n % 256 :=
      UInt8.toNat_ofNat_of_lt (Nat.mod_lt _ (by decide))
    rw [leBytes, ofLeBytes, ih, hb, Nat.pow_succ', Nat.mod_mul]

end QilingOs
