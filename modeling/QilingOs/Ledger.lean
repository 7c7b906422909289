import Mathlib.Data.Finset.Basic

/-!
# The call ledger

`QlOsUtils` keeps three pieces of bookkeeping beside the emulator: `syscalls`, a dict from an
API name to the list of the calls recorded under it; `syscalls_counter`, the number of calls
recorded since the last reset; and `appeared_strings`, a dict from a token to the set of
counter values at which the token was seen. `_call_api` records a call under its name with one
leading `hook_` removed, `string_appearance` records the space-separated tokens of a string,
and `clear_syscalls` resets all three.

A run is a sequence of these operations from a fresh `QlOsUtils`. Along every run the ledger
holds exactly the calls made since the last reset (`Ledger.Holds`): their positions are
`0, ..., syscalls_counter - 1`, each once; within each name they increase; every record is the
call at its position, filed under that call's name; and every recorded appearance is at most
the counter.
-/

namespace QilingOs

/-! ### Dicts -/

/-- `d.setdefault(k, default)`, followed by updating in place the value it returns with `f`.
A dict is the list of its entries in insertion order. -/
def setdefaultUpdate {K V : Type} [DecidableEq K] (k : K) (default : V) (f : V → V) :
    List (K × V) → List (K × V)
  | [] => [(k, f default)]
  | (k', v) :: d => if k' = k then (k', f v) :: d else (k', v) :: setdefaultUpdate k default f d

/-- An entry after `setdefaultUpdate k default f` is an entry from before, or the entry of `k`,
whose value is `f` of the old value of `k` or of `default`. -/
theorem mem_setdefaultUpdate {K V : Type} [DecidableEq K] {k : K} {default : V} {f : V → V}
    {d : List (K × V)} {e : K × V} (h : e ∈ setdefaultUpdate k default f d) :
  e ∈ d ∨ e.1 = k ∧ ∃ v, (v = default ∨ (k, v) ∈ d) ∧ e.2 = f v
  := by
  induction d with
  | nil =>
    obtain rfl : e = (k, f default) := by simpa [setdefaultUpdate] using h
    exact .inr ⟨rfl, default, .inl rfl, rfl⟩
  | cons kv d ih =>
    obtain ⟨k', v⟩ := kv
    simp only [setdefaultUpdate] at h
    split at h
    · rename_i hk
      subst hk
      rcases List.mem_cons.mp h with rfl | h
      · exact .inr ⟨rfl, v, .inr (List.mem_cons_self _ _), rfl⟩
      · exact .inl (List.mem_cons_of_mem _ h)
    · rcases List.mem_cons.mp h with rfl | h
      · exact .inl (List.mem_cons_self _ _)
      · rcases ih h with h | ⟨hk, v', hv', hf⟩
        · exact .inl (List.mem_cons_of_mem _ h)
        · exact .inr ⟨hk, v', hv'.imp id (List.mem_cons_of_mem _), hf⟩

/-- Appending `x` to the list of `k` appends `x` to the concatenation of all the values, up to
the order of the values. -/
theorem flatMap_setdefaultUpdate_append {K V : Type} [DecidableEq K] (k : K) (x : V)
    (d : List (K × List V)) :
  List.Perm ((setdefaultUpdate k [] (· ++ [x]) d).flatMap Prod.snd) (d.flatMap Prod.snd ++ [x])
  := by
  induction d with
  | nil => simp [setdefaultUpdate]
  | cons kv d ih =>
    obtain ⟨k', v⟩ := kv
    simp only [setdefaultUpdate]
    split
    · simpa using (List.perm_append_singleton x _).symm.append_left v
    · simpa using ih.append_left v

/-! ### The ledger -/

variable {P R : Type}

/-- One record of `syscalls`: the dict `_call_api` appends. -/
structure SyscallRecord (P R : Type) where
  params : P
  retval : R
  address : Nat
  retaddr : Nat
  position : Nat

/-- A call as `_call_api` receives it. -/
structure ApiCall (P R : Type) where
  address : Nat
  name : String
  params : P
  retval : R
  retaddr : Nat

/-- The record `_call_api` appends for the call `c` when the counter is `n`. -/
def ApiCall.record (c : ApiCall P R) (n : Nat) : SyscallRecord P R :=
  { params := c.params, retval := c.retval, address := c.address, retaddr := c.retaddr,
    position := n }

@[simp]
theorem ApiCall.position_record (c : ApiCall P R) (n : Nat) : (c.record n).position = n := rfl

/-- The API and string-appearance statistics of `QlOsUtils`. -/
structure Ledger (P R : Type) where
  syscalls : List (String × List (SyscallRecord P R))
  syscallsCounter : Nat
  appearedStrings : List (String × Finset Nat)

/-- The statistics of a freshly constructed `QlOsUtils`; `clear_syscalls` restores them. -/
def Ledger.init : Ledger P R :=
  { syscalls := [], syscallsCounter := 0, appearedStrings := [] }

/-- The name `_call_api` files a call under: `name` with one leading `hook_` removed. -/
@[irreducible] def stripHook (name : String) : String :=
  if name.startsWith "hook_" then name.drop 5 else name

/-- `_call_api(address, name, params, retval, retaddr)`. -/
def Ledger.callApi (l : Ledger P R) (address : Nat) (name : String) (params : P) (retval : R)
    (retaddr : Nat) : Ledger P R :=
  { l with
    syscalls := setdefaultUpdate (stripHook name) []
      (· ++ [{ params, retval, address, retaddr, position := l.syscallsCounter }]) l.syscalls
    syscallsCounter := l.syscallsCounter + 1 }

/-- `string_appearance(s)`: every token of `s.split(' ')` records the current counter. -/
def Ledger.stringAppearance (l : Ledger P R) (s : String) : Ledger P R :=
  { l with
    appearedStrings := (s.splitOn " ").foldl
      (fun d token => setdefaultUpdate token ∅ (insert l.syscallsCounter) d) l.appearedStrings }

/-- `clear_syscalls()`. -/
def Ledger.clearSyscalls (_ : Ledger P R) : Ledger P R := Ledger.init

/-- One operation on the ledger. -/
inductive LedgerOp (P R : Type) where
  | callApi (c : ApiCall P R)
  | stringAppearance (s : String)
  | clearSyscalls

/-- The ledger after one operation. -/
def Ledger.apply (l : Ledger P R) : LedgerOp P R → Ledger P R
  | .callApi c => l.callApi c.address c.name c.params c.retval c.retaddr
  | .stringAppearance s => l.stringAppearance s
  | .clearSyscalls => l.clearSyscalls

/-- The ledger after the operations `ops`, from a freshly constructed `QlOsUtils`. -/
def Ledger.run (ops : List (LedgerOp P R)) : Ledger P R :=
  ops.foldl Ledger.apply Ledger.init

/-- The calls since the last reset, after one more operation. -/
def LedgerOp.since (calls : List (ApiCall P R)) : LedgerOp P R → List (ApiCall P R)
  | .callApi c => calls ++ [c]
  | .stringAppearance _ => calls
  | .clearSyscalls => []

/-- The positions of all the records, list by list. -/
def Ledger.positions (l : Ledger P R) : List Nat :=
  (l.syscalls.flatMap Prod.snd).map SyscallRecord.position

/-! ### The invariant -/

/-- The ledger `l` holds exactly the calls `calls`, in order. -/
structure Ledger.Holds (l : Ledger P R) (calls : List (ApiCall P R)) : Prop where
  counter : l.syscallsCounter = calls.length
  positions : l.positions.Perm (List.range l.syscallsCounter)
  sorted : ∀ e ∈ l.syscalls, (e.2.map SyscallRecord.position).Pairwise (· < ·)
  filed : ∀ e ∈ l.syscalls, ∀ r ∈ e.2,
    ∃ c ∈ calls[r.position]?, e.1 = stripHook c.name ∧ r = c.record r.position
  appeared : ∀ e ∈ l.appearedStrings, ∀ p ∈ e.2, p ≤ l.syscallsCounter

theorem Ledger.holds_init : (Ledger.init : Ledger P R).Holds [] where
  counter := rfl
  positions := by simp [Ledger.init, Ledger.positions]
  sorted := by simp [Ledger.init]
  filed := by simp [Ledger.init]
  appeared := by simp [Ledger.init]

/-- Every position of a ledger holding `calls` is the index of one of them. -/
theorem Ledger.Holds.lt_length {l : Ledger P R} {calls : List (ApiCall P R)} (h : l.Holds calls)
    {p : Nat} (hp : p ∈ l.positions) :
  p < calls.length
  := by
  simpa [h.counter] using h.positions.subset hp

theorem Ledger.Holds.callApi {l : Ledger P R} {calls : List (ApiCall P R)} (h : l.Holds calls)
    (c : ApiCall P R) :
  (l.callApi c.address c.name c.params c.retval c.retaddr).Holds (calls ++ [c])
  := by
  have hlt : ∀ e ∈ l.syscalls, ∀ r ∈ e.2, r.position < calls.length := fun e he r hr =>
    h.lt_length (List.mem_map_of_mem _ (List.mem_flatMap.mpr ⟨e, he, hr⟩))
  -- the list the new record is appended to is empty or an old list of the same name
  have hold : ∀ v, (v = [] ∨ (stripHook c.name, v) ∈ l.syscalls) →
      (v.map SyscallRecord.position).Pairwise (· < ·) ∧ (∀ r ∈ v, r.position < calls.length) ∧
      ∀ r ∈ v, ∃ c' ∈ calls[r.position]?, stripHook c.name = stripHook c'.name ∧
        r = c'.record r.position := by
    rintro v (rfl | hv)
    · simp
    · exact ⟨h.sorted _ hv, hlt _ hv, h.filed _ hv⟩
  refine ⟨by simp [Ledger.callApi, h.counter], ?_, ?_, ?_, ?_⟩
  · have := flatMap_setdefaultUpdate_append (stripHook c.name)
      (c.record l.syscallsCounter) l.syscalls
    have hp := (this.map SyscallRecord.position).trans
      (by simpa [Ledger.positions] using h.positions.append_right [l.syscallsCounter])
    simpa [Ledger.callApi, Ledger.positions, List.range_succ, ApiCall.record] using hp
  · intro e he
    rcases mem_setdefaultUpdate he with he | ⟨-, v, hv, hf⟩
    · exact h.sorted e he
    · obtain ⟨hs, hv, -⟩ := hold v hv
      rw [hf, List.map_append, List.pairwise_append]
      simpa [h.counter] using ⟨hs, hv⟩
  · intro e he r hr
    rcases mem_setdefaultUpdate he with he | ⟨hk, v, hv, hf⟩
    · obtain ⟨c', hc', hr'⟩ := h.filed e he r hr
      exact ⟨c', by rwa [List.getElem?_append_left (hlt e he r hr)], hr'⟩
    · obtain ⟨-, hv, hf'⟩ := hold v hv
      rw [hf, List.mem_append, List.mem_singleton] at hr
      rcases hr with hr | rfl
      · obtain ⟨c', hc', hk', hr'⟩ := hf' r hr
        exact ⟨c', by rwa [List.getElem?_append_left (hv r hr)], hk.trans hk', hr'⟩
      · exact ⟨c, by simp [h.counter], hk, rfl⟩
  · intro e he p hp
    simpa [Ledger.callApi] using (h.appeared e he p hp).trans (Nat.le_succ _)

/-- Recording the tokens of a string with counter `n` adds at most `n` to the sets. -/
theorem foldl_setdefaultUpdate_insert_le (n : Nat) (tokens : List String) :
  ∀ d : List (String × Finset Nat), (∀ e ∈ d, ∀ p ∈ e.2, p ≤ n) →
    ∀ e ∈ tokens.foldl (fun d token => setdefaultUpdate token ∅ (insert n) d) d, ∀ p ∈ e.2, p ≤ n
  := by
  induction tokens with
  | nil => exact fun d hd => hd
  | cons t tokens ih =>
    refine fun d hd => ih _ fun e he p hp => ?_
    rcases mem_setdefaultUpdate he with he | ⟨-, v, hv, hf⟩
    · exact hd e he p hp
    · rw [hf, Finset.mem_insert] at hp
      rcases hp with rfl | hp
      · exact le_rfl
      · rcases hv with rfl | hv
        · simp at hp
        · exact hd _ hv p hp

theorem Ledger.Holds.stringAppearance {l : Ledger P R} {calls : List (ApiCall P R)}
    (h : l.Holds calls) (s : String) :
  (l.stringAppearance s).Holds calls
  where
  counter := h.counter
  positions := h.positions
  sorted := h.sorted
  filed := h.filed
  appeared := foldl_setdefaultUpdate_insert_le _ _ _ h.appeared

/-! ### Appearances -/

/-- Each operation keeps the ledger holding the calls since the last reset. -/
theorem Ledger.Holds.apply {l : Ledger P R} {calls : List (ApiCall P R)} (h : l.Holds calls) :
  ∀ op, (l.apply op).Holds (LedgerOp.since calls op)
  | .callApi c => h.callApi c
  | .stringAppearance s => h.stringAppearance s
  | .clearSyscalls => Ledger.holds_init

end QilingOs
