import Lemul.Misc.Lists
import Lemul.Misc.Lts
import Lemul.PtySession.Ring

/-!
# The replay ring and the buffers it is given

`Ring` takes a chunk to be a value, while `push` (`internal/ptysession/ring.go:34-42`) is given a
slice of a buffer that its caller goes on using: `readLoop` reads into one and the same buffer
again and again. Here the ring holds addresses of byte arrays, and the caller writes to arrays of
its own between any two calls. It refines `Ring`: what `push` keeps is a copy.
-/

namespace Lemul.PtySession

open List

/-- A byte array. -/
structure Buffer where
  bytes : GoString
  /-- The caller has a slice of it. -/
  callers : Bool
  deriving DecidableEq, Repr

/-- A `chunk` (`ring.go:20-25`), by the address of its array. -/
structure ChunkRef where
  addr : Nat
  cleanStart : Bool
  deriving DecidableEq, Repr

/-- A ring with the arrays of its process. -/
structure Memory where
  /-- Every array made so far. Its address is its position here. -/
  heap : List Buffer
  chunks : List ChunkRef
  bytes : Nat
  limit : Nat
  deriving DecidableEq, Repr

namespace Memory

/-- What the array at `a` holds. -/
def load (heap : List Buffer) (a : Nat) : GoString := ((heap[a]?).map Buffer.bytes).getD []

/-- The chunk at an address, as a value. -/
def read (heap : List Buffer) (c : ChunkRef) : Chunk := ⟨load heap c.addr, c.cleanStart⟩

/-- The chunks that are retained. -/
def retained (m : Memory) : List Chunk := m.chunks.map (read m.heap)

/-- `newRing` (`ring.go:27-32`). -/
def new (limit : Int) : Memory :=
  ⟨[], [], 0, if limit ≤ 0 then Ring.defaultRingBytes else limit.toNat⟩

/-- The loop of `push` (`ring.go:38-41`). -/
def evictRefs (heap : List Buffer) (limit : Nat) : Nat → List ChunkRef → Nat × List ChunkRef
  | bytes, [] => (bytes, [])
  | bytes, c :: cs =>
      if limit < bytes then evictRefs heap limit (bytes - (load heap c.addr).length) cs
      else (bytes, c :: cs)

/-- `push` (`ring.go:34-42`) of a slice that holds `b`: `append([]byte(nil), b...)` is an array
that nobody else has. -/
def push (m : Memory) (b : GoString) (cleanStart : Bool) : Memory :=
  let heap := m.heap ++ [⟨b, false⟩]
  let kept := evictRefs heap m.limit (m.bytes + b.length)
    (m.chunks ++ [⟨m.heap.length, cleanStart⟩])
  ⟨heap, kept.2, kept.1, m.limit⟩

/-- `snapshot` (`ring.go:48-68`). -/
def snapshot (m : Memory) : GoString :=
  match m.chunks.findIdx? (·.cleanStart) with
  | none => []
  | some start => (m.chunks.drop start).flatMap (fun c => load m.heap c.addr)

/-- What the caller of a ring does. -/
inductive Move where
  /-- It makes a buffer. -/
  | make (b : GoString)
  /-- It writes a byte to a buffer it has. -/
  | write (addr i : Nat) (x : UInt8)
  /-- It calls `push` with a slice of a buffer it has. The slice begins at `lo` and holds `b`. -/
  | push (addr lo : Nat) (b : GoString) (cleanStart : Bool)
  /-- It calls `snapshot`, and has the array that is returned. -/
  | snapshot
  deriving DecidableEq, Repr

def step (m : Memory) : Move → Option Memory
  | .make b => some { m with heap := m.heap ++ [⟨b, true⟩] }
  | .write addr i x =>
      match m.heap[addr]? with
      | some buf =>
          if buf.callers then
            some { m with heap := m.heap.set addr { buf with bytes := buf.bytes.set i x } }
          else none
      | none => none
  | .push addr lo b cleanStart =>
      match m.heap[addr]? with
      | some buf =>
          if buf.callers ∧ b.isPrefixOf (buf.bytes.drop lo) then some (m.push b cleanStart)
          else none
      | none => none
  | .snapshot => some { m with heap := m.heap ++ [⟨m.snapshot, true⟩] }

/-- A ring and its caller. -/
def machine : Lts Memory Move := ⟨step⟩

/-- The chunks that were pushed, as the buffers held them at the call. -/
def pushed (tr : List Move) : List Chunk :=
  tr.filterMap fun
    | .push _ _ b cleanStart => some ⟨b, cleanStart⟩
    | _ => none

/-! ## The copies -/

/-- The loop does to the addresses what it does to the chunks. -/
theorem evict_read (heap : List Buffer) (limit bytes : Nat) (cs : List ChunkRef) :
    evict limit bytes (cs.map (read heap)) =
      ((evictRefs heap limit bytes cs).1, (evictRefs heap limit bytes cs).2.map (read heap)) := by
  induction cs generalizing bytes with
  | nil => rfl
  | cons c cs ih =>
    simp only [map_cons, evict, evictRefs]
    split
    · exact ih _
    · rfl

theorem evictRefs_suffix (heap : List Buffer) (limit bytes : Nat) (cs : List ChunkRef) :
    (evictRefs heap limit bytes cs).2 <:+ cs := by
  induction cs generalizing bytes with
  | nil => exact suffix_rfl
  | cons c cs ih =>
    unfold evictRefs
    split
    · exact (ih _).trans (suffix_cons c cs)
    · exact suffix_rfl

/-- The array at `a` is the ring's own. -/
def Private (heap : List Buffer) (a : Nat) : Prop := ∃ b, heap[a]? = some ⟨b, false⟩

/-- From `heap` to `heap'` the ring's own arrays stay as they are. -/
def Undisturbed (heap heap' : List Buffer) : Prop :=
  ∀ (a : Nat) (b : GoString), heap[a]? = some ⟨b, false⟩ → heap'[a]? = some ⟨b, false⟩

theorem undisturbed_concat (heap : List Buffer) (buf : Buffer) :
    Undisturbed heap (heap ++ [buf]) :=
  fun _ _ h => getElem?_concat_old h buf

theorem undisturbed_set {heap : List Buffer} {addr : Nat} {buf : Buffer}
    (hbuf : heap[addr]? = some buf) (hcallers : buf.callers = true) (buf' : Buffer) :
    Undisturbed heap (heap.set addr buf') := by
  intro a b h
  have hne : addr ≠ a := by
    rintro rfl
    cases hbuf.symm.trans h
    cases hcallers
  rw [getElem?_set_ne hne]
  exact h

theorem Undisturbed.read_eq {heap heap' : List Buffer} (h : Undisturbed heap heap')
    {c : ChunkRef} (hc : Private heap c.addr) : read heap' c = read heap c := by
  obtain ⟨b, hb⟩ := hc
  simp only [read, load, hb, h _ _ hb]

/-- The ring over a memory is `r`, and its chunks are its own. -/
structure Refines (m : Memory) (r : Ring) : Prop where
  retained : m.retained = r.chunks
  bytes : m.bytes = r.bytes
  limit : m.limit = r.limit
  copies : ∀ c ∈ m.chunks, Private m.heap c.addr

namespace Refines

variable {m : Memory} {r : Ring}

theorem new (limit : Int) : Refines (Memory.new limit) (Ring.new limit) :=
  ⟨rfl, rfl, rfl, fun _ hc => absurd hc not_mem_nil⟩

/-- Whatever else the caller does, the ring stays what it is. -/
theorem of_undisturbed (h : Refines m r) {heap : List Buffer} (hheap : Undisturbed m.heap heap) :
    Refines { m with heap := heap } r where
  retained := by
    rw [← h.retained]
    exact map_congr_left (fun c hc => hheap.read_eq (h.copies c hc))
  bytes := h.bytes
  limit := h.limit
  copies c hc := (h.copies c hc).imp (fun _ hb => hheap _ _ hb)

theorem push (h : Refines m r) (b : GoString) (cleanStart : Bool) :
    Refines (m.push b cleanStart) (r.push b cleanStart) := by
  have hnew : (m.heap ++ [(⟨b, false⟩ : Buffer)])[m.heap.length]? = some ⟨b, false⟩ := by simp
  have hold := h.of_undisturbed (undisturbed_concat m.heap ⟨b, false⟩)
  have hchunks : map (read (m.heap ++ [⟨b, false⟩]))
      (m.chunks ++ [⟨m.heap.length, cleanStart⟩]) = r.chunks ++ [⟨b, cleanStart⟩] := by
    rw [map_append, ← hold.retained]
    simp [Memory.retained, read, load]
  have hkept := evict_read (m.heap ++ [⟨b, false⟩]) m.limit (m.bytes + b.length)
    (m.chunks ++ [⟨m.heap.length, cleanStart⟩])
  rw [hchunks, h.bytes, h.limit] at hkept
  constructor
  · simp only [Memory.retained, Memory.push, Ring.push, hkept, h.bytes, h.limit]
  · simp only [Memory.push, Ring.push, hkept, h.bytes, h.limit]
  · exact h.limit
  · intro c hc
    rcases mem_concat.mp ((evictRefs_suffix _ _ _ _).subset hc) with hc | rfl
    · exact hold.copies c hc
    · exact ⟨b, hnew⟩

/-- A step that pushes is a push of `Ring`, and every other step leaves the ring alone. -/
theorem step (h : Refines m r) {l : Move} {m' : Memory} (hstep : m.step l = some m') :
    Refines m' ((pushed [l]).foldl (fun r c => r.push c.b c.cleanStart) r) := by
  cases l with
  | make b =>
    cases hstep
    exact h.of_undisturbed (undisturbed_concat m.heap _)
  | write addr i x =>
    simp only [Memory.step] at hstep
    split at hstep
    · rename_i buf hbuf
      split at hstep <;> cases hstep
      rename_i hcallers
      exact h.of_undisturbed (undisturbed_set hbuf hcallers _)
    · cases hstep
  | push addr lo b cleanStart =>
    simp only [Memory.step] at hstep
    split at hstep
    · split at hstep <;> cases hstep
      exact h.push b cleanStart
    · cases hstep
  | snapshot =>
    cases hstep
    exact h.of_undisturbed (undisturbed_concat m.heap _)

end Refines

/-- The memory after a run refines the ring that was given the pushed chunks, and the ring holds
the longest end of them. -/
theorem run_refines {limit : Int} {tr : List Move} {m : Memory}
    (h : machine.Run (new limit) tr m) :
    ∃ r : Ring, Refines m r ∧ r.Holds (pushed tr) ∧ r.limit = (Ring.new limit).limit := by
  refine h.traced (P := fun tr m => ∃ r : Ring, Refines m r ∧ r.Holds (pushed tr) ∧
    r.limit = (Ring.new limit).limit) ?_ ?_
  · exact ⟨Ring.new limit, .new limit, ⟨suffix_rfl, fun _ hs _ => hs⟩, rfl⟩
  · rintro tr m l m' ⟨r, hr, hholds, hlimit⟩ hstep
    have hnext := hr.step hstep
    rw [pushed, filterMap_append]
    cases l with
    | push addr lo b cleanStart => exact ⟨_, hnext, hholds.push b cleanStart, hlimit⟩
    | _ =>
      refine ⟨r, hnext, ?_, hlimit⟩
      rw [← append_nil (pushed tr)] at hholds
      exact hholds

/-- The loop of `snapshot` finds the first clean chunk. -/
theorem snapshot_eq (m : Memory) :
    m.snapshot = (m.retained.dropWhile (fun c => !c.cleanStart)).flatMap (fun c => c.b) := by
  unfold snapshot retained
  induction m.chunks with
  | nil => rfl
  | cons c cs ih =>
    cases hc : c.cleanStart with
    | true => simp [findIdx?_cons, hc, read, flatMap_map]
    | false =>
      simp only [findIdx?_cons, hc, Bool.false_eq_true, if_false, map_cons, read,
        dropWhile_cons, Bool.not_false, if_true]
      rw [← ih]
      cases cs.findIdx? (·.cleanStart) with
      | none => rfl
      | some i => rfl

/-- Whatever the caller pushes and whatever it writes to its buffers before and after, the ring
retains the longest end of the pushed chunks that fits, counts its bytes, and `snapshot` returns
them from the first clean chunk on. -/
theorem replay_longest {limit : Int} (hlimit : 0 < limit) {tr : List Move} {m : Memory}
    (h : machine.Run (new limit) tr m) :
    m.retained <:+ pushed tr ∧ (Chunk.total m.retained : Int) ≤ limit ∧
      (∀ s, s <:+ pushed tr → (Chunk.total s : Int) ≤ limit → s <:+ m.retained) ∧
      m.bytes = Chunk.total m.retained ∧
      m.snapshot = (m.retained.dropWhile (fun c => !c.cleanStart)).flatMap (fun c => c.b) := by
  obtain ⟨r, hr, hholds, hr_limit⟩ := run_refines h
  have hlim : (r.limit : Int) = limit := by
    simp only [hr_limit, Ring.new, if_neg (Int.not_le.mpr hlimit)]
    omega
  have hle : Chunk.total r.chunks ≤ r.limit := r.bytes_eq ▸ r.bytes_le
  rw [snapshot_eq, hr.retained, hr.bytes]
  exact ⟨hholds.1, by omega, fun s hs hfits => hholds.2 s hs (by omega), r.bytes_eq, rfl⟩

/-- A caller that uses one buffer for everything it pushes. -/
def reusedBuffer : List Move :=
  [.make "abc", .push 0 0 "abc" true, .write 0 0 0x78, .push 0 0 "xb" false,
    .write 0 1 0x79, .push 0 0 "xyc" true, .write 0 2 0x7a, .snapshot]

theorem replay_longest_reusedBuffer :
    (machine.exec (new 6) reusedBuffer).map (fun m => (m.retained, m.snapshot)) =
        some ([⟨str "xb", false⟩, ⟨str "xyc", true⟩], str "xyc") ∧
      ∃ m, machine.Run (new 6) reusedBuffer m ∧ m.retained <:+ pushed reusedBuffer := by
  refine ⟨by decide +kernel, (machine.exec (new 6) reusedBuffer).get (by decide +kernel),
    Lts.exec_run (Option.some_get _).symm, ?_⟩
  exact (replay_longest (by decide) (Lts.exec_run (Option.some_get _).symm)).1

end Memory

end Lemul.PtySession
