import BlockCache.Proofs.Arena.Payload
import Mathlib.Algebra.Order.Floor.Div

/-!
# The ledger of an arena

What a client of an arena knows who sees its answers and nothing else: which runs it was given and has not
given back, and what it last wrote to each. This ledger decides everything. An access is accepted exactly if
the ledger has the run that its region names, whatever the region's origin; it stays inside that run; a new
run lies apart from those in the ledger; and a value is read back until its run is written again or given
back, whatever happens to the other runs.
-/

open scoped List

namespace BlockCache.Arena

/-- What can be done to an arena. -/
inductive Operation where
  | alloc (size : Nat)
  | write (r : Region) (data : Bytes)
  | get (r : Region)
  | free (r : Region)
  | clear
  | close

/-- What an operation answers. -/
inductive Answer where
  | region (r : Region)
  | bytes (data : Bytes)
  | done

/-- The region that an operation accesses, if it accesses one. -/
def Operation.region? : Operation → Option Region
  | write r _ | get r | free r => some r
  | alloc _ | clear | close => none

/-- Performs an operation. -/
def perform (a : Arena) : Operation → Except StoreError Answer × Arena
  | .alloc size =>
    match a.alloc size with
    | .ok (r, after) => (.ok (.region r), after)
    | .error e => (.error e, a)
  | .write r data =>
    match a.write r data with
    | .ok after => (.ok .done, after)
    | .error e => (.error e, a)
  | .get r =>
    match a.get r with
    | .ok data => (.ok (.bytes data), a)
    | .error e => (.error e, a)
  | .free r =>
    match a.free r with
    | .ok after => (.ok .done, after)
    | .error e => (.error e, a)
  | .clear => (.ok .done, a.clear)
  | .close => (.ok .done, a.close)

/-- A run that was given out and not given back, and the last value written to it. -/
structure Lease where
  start : UInt32
  blocks : UInt32
  /-- The last value written to the run, and the region through which it was written. -/
  written : Option (Region × Bytes)

/-- The runs given out since the arena was last cleared and not given back, and whether it was closed. -/
structure Ledger where
  leases : List Lease
  closed : Bool

/-- The region has exactly the lease's run. -/
def Lease.Names (lease : Lease) (r : Region) : Prop := lease.start = r.start ∧ lease.blocks = r.blocks

instance (lease : Lease) (r : Region) : Decidable (lease.Names r) := inferInstanceAs (Decidable (_ ∧ _))

/-- The lease's run, as the table of run heads has it. -/
def Lease.run (lease : Lease) : Nat × UInt32 := (lease.start.toNat, lease.blocks)

/-- The lease's run has no block in common with `blocks` blocks from `start` on. -/
def Lease.Apart (lease : Lease) (start blocks : Nat) : Prop :=
  lease.start.toNat + lease.blocks.toNat ≤ start ∨ start + blocks ≤ lease.start.toNat

namespace Ledger

def empty : Ledger := ⟨[], false⟩

/-- The ledger after an operation and its answer. -/
def note (l : Ledger) : Operation → Except StoreError Answer → Ledger
  | .alloc _, .ok (.region r) => { l with leases := ⟨r.start, r.blocks, none⟩ :: l.leases }
  | .write r data, .ok _ =>
    { l with leases := l.leases.map fun lease => if lease.Names r then { lease with written := some (r, data) } else lease }
  | .free r, .ok _ => { l with leases := l.leases.filter fun lease => ¬lease.Names r }
  | .clear, _ => { l with leases := [] }
  | .close, _ => ⟨[], true⟩
  | _, _ => l

/-- Some lease has exactly the run of the region, and the region is no longer than the run. -/
def Admits (l : Ledger) (blockSize : Nat) (r : Region) : Prop :=
  (∃ lease ∈ l.leases, lease.Names r) ∧ r.length.toNat ≤ r.blocks.toNat * blockSize

/-- Whether an access is to be accepted. -/
def Accepts (l : Ledger) (blockSize : Nat) : Operation → Prop
  | .write r data => l.Admits blockSize r ∧ data.length = r.length.toNat
  | .get r | .free r => l.Admits blockSize r
  | .alloc _ | .clear | .close => True

/-- The errors with which accesses are refused. -/
def Refuses (l : Ledger) (e : StoreError) : Prop :=
  if l.closed then e = .closed else ∃ detail, e = .invalidRegion detail

end Ledger

/-- Performs operations one after the other, and keeps the ledger. -/
def runWith (a : Arena) (l : Ledger) : List Operation → Arena × Ledger
  | [] => (a, l)
  | op :: ops => (a.perform op).2.runWith (l.note op (a.perform op).1) ops

/-- The address is one of the region's run. -/
def InRun (a : Arena) (r : Region) (address : Nat) : Prop :=
  r.start.toNat * a.blockSize ≤ address ∧ address < (r.start.toNat + r.blocks.toNat) * a.blockSize

/-- How an operation that accesses a region comes out. -/
structure Accesses (a : Arena) (l : Ledger) (op : Operation) (r : Region) : Prop where
  accepted : (∃ answer, (a.perform op).1 = .ok answer) ↔ l.Accepts a.blockSize op
  refused : ¬l.Accepts a.blockSize op → ∃ e, l.Refuses e ∧ a.perform op = (.error e, a)
  /-- The answer of an accepted access depends on the bytes of the run only. -/
  reads : l.Accepts a.blockSize op → ∀ tape : Tape, (∀ x, a.InRun r x → tape.byteAt x = a.tape.byteAt x) →
    ({ a with tape }.perform op).1 = (a.perform op).1
  /-- No byte outside the run is changed. -/
  bytes : ∀ x, ¬a.InRun r x → (a.perform op).2.tape.byteAt x = a.tape.byteAt x
  /-- No block outside the run becomes used or free. -/
  blocks : ∀ block, ¬(r.start.toNat ≤ block ∧ block < r.start.toNat + r.blocks.toNat) →
    (a.perform op).2.used.isUsed block = a.used.isUsed block

/-- What a run is that is given out for a value of `size` bytes. -/
structure Grants (a : Arena) (l : Ledger) (size : Nat) (r : Region) : Prop where
  blocks : r.blocks.toNat = max 1 (size ⌈/⌉ a.blockSize)
  inside : r.start.toNat + r.blocks.toNat ≤ a.totalBlocks
  apart : ∀ lease ∈ l.leases, lease.Apart r.start.toNat r.blocks.toNat
  length : size < 2 ^ 32 → r.length.toNat = size

/-- The arena is as its ledger says. -/
structure Accounts (a : Arena) (l : Ledger) : Prop where
  inside : ∀ lease ∈ l.leases, 0 < lease.blocks.toNat ∧ lease.start.toNat + lease.blocks.toNat ≤ a.totalBlocks
  apart : l.leases.Pairwise fun lease other => lease.Apart other.start.toNat other.blocks.toNat
  used : a.usedBytes = a.blockSize * (l.leases.map (·.blocks.toNat)).sum
  balance : a.usedBytes + a.freeBytes = a.size
  closed : l.closed = a.closed
  grants : ∀ size r, (a.perform (.alloc size)).1 = .ok (.region r) → a.Grants l size r
  accesses : ∀ op r, op.region? = some r → a.Accesses l op r
  /-- What was last written to a run is read from it through the same region. -/
  readBack : ∀ lease ∈ l.leases, ∀ r data, lease.written = some (r, data) →
    (a.perform (.get r)).1 = .ok (.bytes data)

/-- The ledger's runs are the live runs, and what it has as written is what they hold. -/
structure Backs (a : Arena) (l : Ledger) : Prop where
  sound : a.Sound
  closed : l.closed = a.closed
  runs : a.heads.toList ~ l.leases.map Lease.run
  written : ∀ lease ∈ l.leases, ∀ r data, lease.written = some (r, data) → lease.Names r ∧ a.get r = .ok data

/-- An access is refused for being closed, or for its region. -/
theorem eq_of_fault? {a : Arena} {r : Region} {e : StoreError} (fault : a.fault? r = some e) :
    if a.closed then e = .closed else ∃ detail, e = .invalidRegion detail := by
  unfold fault? at fault
  split
  · rename_i closed
    rw [if_pos closed] at fault
    exact (Option.some.inj fault).symm
  · rename_i opened
    rw [if_neg opened] at fault
    split at fault
    · exact ⟨_, (Option.some.inj fault).symm⟩
    · split at fault
      · exact ⟨_, (Option.some.inj fault).symm⟩
      · split at fault
        · exact ⟨_, (Option.some.inj fault).symm⟩
        · cases fault

/-- Reads give the same if their regions may be used and lie in the same bytes. -/
theorem Sound.get_congr {a b : Arena} {r : Region} (sound : a.Sound) (after : b.Sound) (owns : a.Owns r)
    (live : b.heads[r.start.toNat]? = some r.blocks) (blockSize : b.blockSize = a.blockSize)
    (tape : ∀ x, a.InRun r x → b.tape.byteAt x = a.tape.byteAt x) : b.get r = a.get r := by
  have fits := owns.fits
  rw [sound.get_eq owns, after.get_eq ⟨live, by rw [blockSize]; exact fits⟩, address, address, blockSize, Tape.read_eq,
    Tape.read_eq]
  refine congrArg Except.ok (List.map_congr_left fun x mem => tape x ?_)
  obtain ⟨i, inside, rfl⟩ := List.mem_range'.1 mem
  rw [InRun, Nat.add_mul]
  omega

namespace Backs

variable {a : Arena} {l : Ledger}

theorem new (capacity blockSize : Nat) : (Arena.new capacity blockSize).Backs .empty where
  sound := .new capacity blockSize
  closed := rfl
  runs := .refl _
  written := by simp [Ledger.empty]

/-- The live runs are those of the leases. -/
theorem live_iff (backs : a.Backs l) {start : Nat} {n : UInt32} :
    a.heads[start]? = some n ↔ ∃ lease ∈ l.leases, lease.start.toNat = start ∧ lease.blocks = n := by
  rw [← Std.TreeMap.mem_toList_iff_getElem?_eq_some, backs.runs.mem_iff, List.mem_map]
  simp only [Lease.run, Prod.mk.injEq]

theorem live (backs : a.Backs l) {lease : Lease} (mem : lease ∈ l.leases) :
    a.heads[lease.start.toNat]? = some lease.blocks := backs.live_iff.2 ⟨lease, mem, rfl, rfl⟩

/-- A region may be used exactly if the ledger admits it. -/
theorem owns_iff (backs : a.Backs l) {r : Region} : a.Owns r ↔ l.Admits a.blockSize r := by
  constructor
  · rintro ⟨live, fits⟩
    obtain ⟨lease, mem, start, blocks⟩ := backs.live_iff.1 live
    exact ⟨⟨lease, mem, UInt32.toNat_inj.1 start, blocks⟩, fits⟩
  · rintro ⟨⟨lease, mem, start, blocks⟩, fits⟩
    exact ⟨backs.live_iff.2 ⟨lease, mem, congrArg UInt32.toNat start, blocks⟩, fits⟩

/-- No two leases begin at one block. -/
theorem nodup_starts (backs : a.Backs l) : (l.leases.map (·.start.toNat)).Nodup := by
  have keys := backs.runs.map (·.1)
  rw [List.map_map] at keys
  change _ ~ l.leases.map (·.start.toNat) at keys
  rw [← keys.nodup_iff, Std.TreeMap.map_fst_toList_eq_keys]
  exact Std.TreeMap.nodup_keys

theorem refuses_of_fault? (backs : a.Backs l) {r : Region} {e : StoreError} (fault : a.fault? r = some e) :
    l.Refuses e := by
  have shape := eq_of_fault? fault
  rwa [← backs.closed] at shape

/-- What a region is for that the ledger does not admit. -/
theorem fault?_of_not_admits (backs : a.Backs l) {r : Region} (foreign : ¬l.Admits a.blockSize r) :
    ∃ e, a.fault? r = some e ∧ l.Refuses e := by
  cases fault : a.fault? r with
  | none => exact absurd (backs.owns_iff.1 (backs.sound.fault?_eq_none_iff.1 fault)) foreign
  | some e => exact ⟨e, rfl, backs.refuses_of_fault? fault⟩

/-- A read that succeeds is one of a region that may be used. -/
theorem owns_of_get (backs : a.Backs l) {r : Region} {data : Bytes} (read : a.get r = .ok data) : a.Owns r := by
  rw [← backs.sound.fault?_eq_none_iff]
  cases fault : a.fault? r with
  | none => rfl
  | some e =>
    rw [get, fault] at read
    cases read

/-- A lease that begins where a live region does has the region's run. -/
theorem names_of_start_eq (backs : a.Backs l) {lease : Lease} (mem : lease ∈ l.leases) {r : Region} (owns : a.Owns r)
    (same : lease.start = r.start) : lease.Names r := by
  have live := backs.live mem
  rw [same, owns.live] at live
  exact ⟨same, (Option.some.inj live).symm⟩

section Steps

variable (backs : a.Backs l)

include backs

theorem alloc {b : Arena} {size : Nat} {r : Region} (reserved : a.alloc size = .ok (r, b)) :
    b.Backs { l with leases := ⟨r.start, r.blocks, none⟩ :: l.leases } := by
  obtain ⟨after, reserves⟩ := backs.sound.alloc reserved
  constructor
  · exact after
  · rw [reserves.closed]
    exact backs.closed
  · have runs := Entries.toList_insert a.heads r.start.toNat r.blocks
    rw [Entries.toList_erase_of_absent reserves.absent, ← reserves.heads] at runs
    exact runs.trans (backs.runs.cons _)
  · intro lease mem q data written
    rcases List.mem_cons.1 mem with rfl | old
    · cases written
    · obtain ⟨names, read⟩ := backs.written lease old q data written
      have owns := backs.owns_of_get read
      have other : r.start.toNat ≠ q.start.toNat := by
        intro same
        have absent := reserves.absent
        rw [same, owns.live] at absent
        cases absent
      have live : b.heads[q.start.toNat]? = some q.blocks := by
        rw [reserves.heads, Std.TreeMap.getElem?_insert, if_neg fun same => other (Nat.compare_eq_eq.1 same), owns.live]
      refine ⟨names, ?_⟩
      rw [backs.sound.get_congr after owns live reserves.blockSize fun x _ => by rw [reserves.tape], read]

theorem write {r : Region} {data : Bytes} (owns : a.Owns r) (length : data.length = r.length.toNat) :
    { a with tape := a.tape.write (a.address r) data }.Backs (l.note (.write r data) (.ok .done)) := by
  constructor
  · exact backs.sound.withTape _
  · exact backs.closed
  · have same : (l.note (.write r data) (.ok .done)).leases.map Lease.run = l.leases.map Lease.run := by
      rw [Ledger.note, List.map_map]
      refine List.map_congr_left fun lease _ => ?_
      dsimp only [Function.comp]
      split <;> rfl
    rw [same]
    exact backs.runs
  · intro lease mem q value written
    obtain ⟨old, there, rfl⟩ := List.mem_map.1 mem
    split at written
    · rename_i names
      obtain ⟨rfl, rfl⟩ := Prod.mk.inj (Option.some.inj written)
      rw [if_pos names]
      exact ⟨names, backs.sound.get_write owns length⟩
    · rename_i others
      obtain ⟨names, read⟩ := backs.written old there q value written
      rw [if_neg others]
      refine ⟨names, ?_⟩
      have ne : q.start ≠ r.start := fun same => others (backs.names_of_start_eq there owns (names.1.trans same))
      rw [backs.sound.get_write_other owns (backs.owns_of_get read) ne length, read]

theorem free {r : Region} (owns : a.Owns r) : (a.withoutRun r).Backs (l.note (.free r) (.ok .done)) := by
  have after := backs.sound.withoutRun owns
  constructor
  · exact after
  · exact backs.closed
  · have kept : l.leases.filter (fun lease => ¬lease.Names r) =
        l.leases.filter fun lease => lease.run.1 ≠ r.start.toNat := by
      refine List.filter_congr fun lease mem => decide_eq_decide.2 (not_congr ⟨fun names => ?_, fun same => ?_⟩)
      · exact congrArg UInt32.toNat names.1
      · exact backs.names_of_start_eq mem owns (UInt32.toNat_inj.1 same)
    change (a.heads.erase r.start.toNat).toList ~ (l.leases.filter fun lease => ¬lease.Names r).map Lease.run
    rw [Entries.toList_erase, kept]
    have runs := backs.runs.filter fun entry => decide (entry.1 ≠ r.start.toNat)
    rwa [List.filter_map] at runs
  · intro lease mem q data written
    obtain ⟨there, others⟩ := List.mem_filter.1 mem
    obtain ⟨names, read⟩ := backs.written lease there q data written
    have ownsRead := backs.owns_of_get read
    have ne : r.start.toNat ≠ q.start.toNat := by
      intro same
      have again := backs.names_of_start_eq there owns (names.1.trans (UInt32.toNat_inj.1 same.symm))
      exact absurd again (by simpa using others)
    refine ⟨names, ?_⟩
    rw [backs.sound.get_congr after ownsRead (Sound.heads_withoutRun.2 ⟨ne, ownsRead.live⟩) rfl fun _ _ => rfl, read]

/-- An access that the ledger does not accept is refused, and changes nothing. -/
theorem perform_of_not_accepts {op : Operation} {r : Region} (region : op.region? = some r)
    (unwelcome : ¬l.Accepts a.blockSize op) : ∃ e, l.Refuses e ∧ a.perform op = (.error e, a) := by
  cases op with
  | alloc _ | clear | close => cases region
  | get q =>
    obtain ⟨e, fault, refuses⟩ := backs.fault?_of_not_admits unwelcome
    exact ⟨e, refuses, by simp only [Arena.perform, Arena.get, fault]⟩
  | free q =>
    obtain ⟨e, fault, refuses⟩ := backs.fault?_of_not_admits unwelcome
    exact ⟨e, refuses, by simp only [Arena.perform, Arena.free, fault]⟩
  | write q data =>
    cases fault : a.fault? q with
    | some e => exact ⟨e, backs.refuses_of_fault? fault, by simp only [Arena.perform, Arena.write, fault]⟩
    | none =>
      have owns := backs.sound.fault?_eq_none_iff.1 fault
      have longer : ¬data.length = q.length.toNat := fun same => unwelcome ⟨backs.owns_iff.1 owns, same⟩
      refine ⟨.invalidRegion s!"write of {data.length} bytes into region of {q.length} bytes", ?_, ?_⟩
      · rw [Ledger.Refuses, backs.closed, backs.sound.not_closed_of_live owns.live]
        exact ⟨_, rfl⟩
      · simp only [Arena.perform, Arena.write, fault, if_neg longer]

theorem perform_write {r : Region} {data : Bytes} (accepts : l.Accepts a.blockSize (.write r data)) :
    a.perform (.write r data) = (.ok .done, { a with tape := a.tape.write (a.address r) data }) := by
  rw [Arena.perform, backs.sound.write_eq (backs.owns_iff.2 accepts.1) accepts.2]

theorem perform_get {r : Region} (accepts : l.Accepts a.blockSize (.get r)) :
    a.perform (.get r) = (.ok (.bytes (a.tape.read (a.address r) r.length.toNat)), a) := by
  rw [Arena.perform, backs.sound.get_eq (backs.owns_iff.2 accepts)]

theorem perform_free {r : Region} (accepts : l.Accepts a.blockSize (.free r)) :
    a.perform (.free r) = (.ok .done, a.withoutRun r) := by
  rw [Arena.perform, backs.sound.free_eq (backs.owns_iff.2 accepts)]

/-- An operation leaves an arena that the ledger noted backs. -/
theorem perform (op : Operation) : (a.perform op).2.Backs (l.note op (a.perform op).1) := by
  cases op with
  | alloc size =>
    rcases reserved : a.alloc size with e | ⟨r, b⟩
    · simp only [Arena.perform, reserved]
      exact backs
    · simp only [Arena.perform, reserved]
      exact backs.alloc reserved
  | write r data =>
    by_cases accepts : l.Accepts a.blockSize (.write r data)
    · rw [backs.perform_write accepts]
      exact backs.write (backs.owns_iff.2 accepts.1) accepts.2
    · obtain ⟨e, -, refused⟩ := backs.perform_of_not_accepts rfl accepts
      rw [refused]
      exact backs
  | get r =>
    rcases read : a.get r with e | data <;> simp only [Arena.perform, read] <;> exact backs
  | free r =>
    by_cases accepts : l.Accepts a.blockSize (.free r)
    · rw [backs.perform_free accepts]
      exact backs.free (backs.owns_iff.2 accepts)
    · obtain ⟨e, -, refused⟩ := backs.perform_of_not_accepts rfl accepts
      rw [refused]
      exact backs
  | clear => exact ⟨backs.sound.clear, backs.closed, .refl _, by simp [Ledger.note]⟩
  | close => exact ⟨.close, rfl, .refl _, by simp [Ledger.note]⟩

theorem run (ops : List Operation) : (a.runWith l ops).1.Backs (a.runWith l ops).2 := by
  induction ops generalizing a l with
  | nil => exact backs
  | cons op ops ih => exact ih (backs.perform op)

/-- A run that is given out is large enough, inside the arena, and apart from the runs given out before. -/
theorem grants {size : Nat} {r : Region} (granted : (a.perform (.alloc size)).1 = .ok (.region r)) :
    a.Grants l size r := by
  rcases reserved : a.alloc size with e | ⟨q, b⟩
  · simp [Arena.perform, reserved] at granted
  · obtain rfl : q = r := by simpa [Arena.perform, reserved] using granted
    obtain ⟨-, reserves⟩ := backs.sound.alloc reserved
    have run := reserves.run
    have blocks := reserves.blocks
    constructor
    · rw [blocks, blocksFor, Nat.ceilDiv_eq_add_pred_div, Nat.max_comm]
    · rw [blocks]
      exact run.inside
    · intro lease mem
      rw [blocks]
      exact backs.sound.apart_of_freeRun run (a.blocksFor_pos size) (backs.live mem)
    · intro small
      rw [reserves.length_eq]
      exact Nat.mod_eq_of_lt small

section Accepted

variable {r : Region}

theorem accesses_write {data : Bytes} (accepts : l.Accepts a.blockSize (.write r data)) :
    a.Accesses l (.write r data) r := by
  have owns := backs.owns_iff.2 accepts.1
  have fits := owns.fits
  have performed := backs.perform_write accepts
  constructor
  · rw [performed]
    exact ⟨fun _ => accepts, fun _ => ⟨_, rfl⟩⟩
  · exact fun unwelcome => absurd accepts unwelcome
  · intro _ tape _
    have retaped : ({ a with tape } : Arena).Owns r := ⟨owns.live, fits⟩
    rw [performed, Arena.perform, (backs.sound.withTape tape).write_eq retaped accepts.2]
  · intro x outside
    rw [performed]
    dsimp only
    rw [Tape.byteAt_write, if_neg]
    rw [accepts.2, address]
    rw [InRun, Nat.add_mul] at outside
    omega
  · intro block _
    rw [performed]

theorem accesses_get (accepts : l.Accepts a.blockSize (.get r)) : a.Accesses l (.get r) r := by
  have owns := backs.owns_iff.2 accepts
  have performed := backs.perform_get accepts
  constructor
  · rw [performed]
    exact ⟨fun _ => accepts, fun _ => ⟨_, rfl⟩⟩
  · exact fun unwelcome => absurd accepts unwelcome
  · intro _ tape same
    have read := backs.sound.get_congr (backs.sound.withTape tape) owns owns.live rfl same
    rw [Arena.perform, Arena.perform, read]
    cases a.get r <;> rfl
  · intro x _
    rw [performed]
  · intro block _
    rw [performed]

theorem accesses_free (accepts : l.Accepts a.blockSize (.free r)) : a.Accesses l (.free r) r := by
  have owns := backs.owns_iff.2 accepts
  have performed := backs.perform_free accepts
  constructor
  · rw [performed]
    exact ⟨fun _ => accepts, fun _ => ⟨_, rfl⟩⟩
  · exact fun unwelcome => absurd accepts unwelcome
  · intro _ tape _
    have retaped : ({ a with tape } : Arena).Owns r := ⟨owns.live, owns.fits⟩
    rw [performed, Arena.perform, (backs.sound.withTape tape).free_eq retaped]
  · intro x _
    rw [performed]
    rfl
  · intro block outside
    rw [performed]
    change (a.used.unmarkRun r.start.toNat r.blocks.toNat).isUsed block = _
    rw [Bitmap.isUsed_unmarkRun, decide_eq_false outside]
    simp

end Accepted

/-- An access comes out as the ledger says, and stays inside the run that it names. -/
theorem accesses {op : Operation} {r : Region} (region : op.region? = some r) : a.Accesses l op r := by
  by_cases accepts : l.Accepts a.blockSize op
  · cases op with
    | write q data =>
      obtain rfl := Option.some.inj region
      exact backs.accesses_write accepts
    | get q =>
      obtain rfl := Option.some.inj region
      exact backs.accesses_get accepts
    | free q =>
      obtain rfl := Option.some.inj region
      exact backs.accesses_free accepts
    | alloc _ | clear | close => cases region
  · obtain ⟨e, refuses, refused⟩ := backs.perform_of_not_accepts region accepts
    refine ⟨⟨?_, fun accepted => absurd accepted accepts⟩, fun _ => ⟨e, refuses, refused⟩,
      fun accepted => absurd accepted accepts, fun _ _ => by rw [refused], fun _ _ => by rw [refused]⟩
    rintro ⟨answer, answered⟩
    rw [refused] at answered
    cases answered

theorem accounts : a.Accounts l := by
  have live : a.liveBlocks = (l.leases.map (·.blocks.toNat)).sum := by
    have blocks := (backs.runs.map fun entry : Nat × UInt32 => entry.2.toNat).sum_eq
    rw [List.map_map] at blocks
    exact blocks
  have balance := backs.sound.balance
  constructor
  · exact fun lease mem => backs.sound.inside (backs.live mem)
  · have starts := List.pairwise_map.1 backs.nodup_starts
    refine starts.imp_of_mem fun mem memOther ne => ?_
    exact backs.sound.apart_of_ne (backs.live mem) (backs.live memOther) ne
  · rw [← live, usedBytes, Nat.mul_comm]
    congr 1
    omega
  · rw [usedBytes, freeBytes, size, ← Nat.add_mul]
    congr 1
    omega
  · exact backs.closed
  · exact fun size r => backs.grants
  · exact fun op r => backs.accesses
  · intro lease mem r data written
    rw [Arena.perform, (backs.written lease mem r data written).2]

end Steps

end Backs

/-- An arena keeps its block size, and its blocks until it is closed. -/
theorem shape_perform (a : Arena) (op : Operation) : (a.perform op).2.blockSize = a.blockSize ∧
    ((a.perform op).2.closed = false → a.closed = false ∧ (a.perform op).2.totalBlocks = a.totalBlocks) := by
  cases op with
  | alloc size =>
    rcases reserved : a.alloc size with e | ⟨r, b⟩
    · simp [perform, reserved]
    · obtain ⟨-, -, start, -, -, rfl⟩ := alloc_ok reserved
      simp only [perform, reserved]
      exact ⟨rfl, fun opened => ⟨opened, rfl⟩⟩
  | write r data =>
    cases fault : a.fault? r with
    | some e => simp [perform, write, fault]
    | none => by_cases same : data.length = r.length.toNat <;> simp [perform, write, fault, same]
  | get r => cases read : a.get r <;> simp [perform, read]
  | free r => cases fault : a.fault? r <;> simp [perform, free, fault]
  | clear => exact ⟨rfl, fun opened => ⟨opened, rfl⟩⟩
  | close => exact ⟨rfl, by simp [perform, close]⟩

theorem shape_run (a : Arena) (l : Ledger) (ops : List Operation) : (a.runWith l ops).1.blockSize = a.blockSize ∧
    ((a.runWith l ops).1.closed = false → a.closed = false ∧ (a.runWith l ops).1.totalBlocks = a.totalBlocks) := by
  induction ops generalizing a l with
  | nil => exact ⟨rfl, fun opened => ⟨opened, rfl⟩⟩
  | cons op ops ih =>
    obtain ⟨size, later⟩ := ih (a.perform op).2 (l.note op (a.perform op).1)
    obtain ⟨sameSize, first⟩ := a.shape_perform op
    refine ⟨size.trans sameSize, fun opened => ?_⟩
    obtain ⟨middle, blocks⟩ := later opened
    obtain ⟨before, sameBlocks⟩ := first middle
    exact ⟨before, blocks.trans sameBlocks⟩

/-- After every run of operations on a new arena, whatever regions they were given, the arena is as the ledger
says that was kept from the answers. It has the blocks of its capacity, and none once it was closed. -/
theorem accounts_run (capacity blockSize : Nat) (ops : List Operation) :
    let (a, l) := (Arena.new capacity blockSize).runWith .empty ops
    a.Accounts l ∧ a.blockSize = max blockSize 1 ∧
      a.totalBlocks = if l.closed then 0 else min (capacity / max blockSize 1) maxBlocks := by
  have backs := (Backs.new capacity blockSize).run ops
  obtain ⟨sameSize, sameBlocks⟩ := (Arena.new capacity blockSize).shape_run .empty ops
  refine ⟨backs.accounts, sameSize, ?_⟩
  rw [backs.closed]
  split
  · rename_i closed
    exact backs.sound.released closed
  · rename_i opened
    exact (sameBlocks (by simpa using opened)).2

end BlockCache.Arena
