import Lemul.Misc.GoString

/-!
# The replay ring

`internal/ptysession/ring.go`: recent output in whole chunks, bounded in bytes. A replay
begins at a chunk that began between escape sequences. `push` copies what it is given, so
a chunk is a value.
-/

namespace Lemul.PtySession

open List

/-- `chunk` (`ring.go:20-25`). -/
structure Chunk where
  b : GoString
  cleanStart : Bool
  deriving DecidableEq, Repr

/-- The bytes in a list of chunks. -/
def Chunk.total (cs : List Chunk) : Nat := (cs.map (fun c => c.b.length)).sum

@[simp] theorem Chunk.total_nil : Chunk.total [] = 0 := rfl

@[simp] theorem Chunk.total_cons (c : Chunk) (cs : List Chunk) :
    Chunk.total (c :: cs) = c.b.length + Chunk.total cs := by
  simp [Chunk.total]

@[simp] theorem Chunk.total_append (cs ds : List Chunk) :
    Chunk.total (cs ++ ds) = Chunk.total cs + Chunk.total ds := by
  simp [Chunk.total]

/-- The loop of `push` (`ring.go:38-41`): drop the oldest chunks while there is too much. -/
def evict (limit : Nat) : Nat → List Chunk → Nat × List Chunk
  | bytes, [] => (bytes, [])
  | bytes, c :: cs =>
      if limit < bytes then evict limit (bytes - c.b.length) cs else (bytes, c :: cs)

/-- The counter keeps up with the chunks, and in the end there is not too much. -/
theorem evict_total {limit bytes : Nat} {cs : List Chunk} (h : bytes = Chunk.total cs) :
    (evict limit bytes cs).1 = Chunk.total (evict limit bytes cs).2 ∧
      (evict limit bytes cs).1 ≤ limit := by
  induction cs generalizing bytes with
  | nil =>
    rw [Chunk.total_nil] at h
    subst h
    exact ⟨rfl, Nat.zero_le _⟩
  | cons c cs ih =>
    unfold evict
    split
    · apply ih
      rw [Chunk.total_cons] at h
      omega
    · exact ⟨h, by omega⟩

/-- What is left is the longest end of the list that fits. -/
theorem evict_longest (limit : Nat) {bytes : Nat} {cs : List Chunk}
    (h : bytes = Chunk.total cs) :
    (evict limit bytes cs).2 <:+ cs ∧
      ∀ s, s <:+ cs → Chunk.total s ≤ limit → s <:+ (evict limit bytes cs).2 := by
  induction cs generalizing bytes with
  | nil => exact ⟨suffix_rfl, fun _ hs _ => hs⟩
  | cons c cs ih =>
    unfold evict
    split
    · rename_i htoo
      rw [Chunk.total_cons] at h
      have hcs : bytes - c.b.length = Chunk.total cs := by omega
      refine ⟨(ih hcs).1.trans (suffix_cons c cs), fun s hs hfits => ?_⟩
      rcases suffix_cons_iff.mp hs with rfl | hs
      · rw [Chunk.total_cons] at hfits
        omega
      · exact (ih hcs).2 s hs hfits
    · exact ⟨suffix_rfl, fun _ hs _ => hs⟩

/-- `ring` (`ring.go:14-18`), with a counter that is right and a bound that is kept. -/
structure Ring where
  chunks : List Chunk
  bytes : Nat
  limit : Nat
  bytes_eq : bytes = Chunk.total chunks
  bytes_le : bytes ≤ limit

namespace Ring

/-- `defaultRingBytes` (`session.go:29`). -/
def defaultRingBytes : Nat := 256 * 2 ^ 10

/-- `newRing` (`ring.go:27-32`). -/
def new (limit : Int) : Ring :=
  ⟨[], 0, if limit ≤ 0 then defaultRingBytes else limit.toNat, Chunk.total_nil.symm,
    Nat.zero_le _⟩

/-- `push` (`ring.go:34-42`). -/
def push (r : Ring) (b : GoString) (cleanStart : Bool) : Ring :=
  let kept := evict r.limit (r.bytes + b.length) (r.chunks ++ [⟨b, cleanStart⟩])
  have hkept : r.bytes + b.length = Chunk.total (r.chunks ++ [⟨b, cleanStart⟩]) := by
    simp [r.bytes_eq]
  ⟨kept.2, kept.1, r.limit, (evict_total hkept).1, (evict_total hkept).2⟩

/-- As long as there is room nothing is dropped. -/
theorem push_of_le {r : Ring} {b : GoString} (h : r.bytes + b.length ≤ r.limit)
    (cleanStart : Bool) :
    (r.push b cleanStart).chunks = r.chunks ++ [⟨b, cleanStart⟩] ∧
      (r.push b cleanStart).bytes = r.bytes + b.length := by
  have hkept : ∀ cs, evict r.limit (r.bytes + b.length) cs = (r.bytes + b.length, cs) := by
    intro cs
    cases cs with
    | nil => rfl
    | cons c cs => rw [evict, if_neg (Nat.not_lt.mpr h)]
  simp only [push, hkept, and_self]

/-- The ring holds the longest end of `pushed` that fits. -/
def Holds (r : Ring) (pushed : List Chunk) : Prop :=
  r.chunks <:+ pushed ∧ ∀ s, s <:+ pushed → Chunk.total s ≤ r.limit → s <:+ r.chunks

theorem Holds.push {r : Ring} {pushed : List Chunk} (h : r.Holds pushed) (b : GoString)
    (cleanStart : Bool) : (r.push b cleanStart).Holds (pushed ++ [⟨b, cleanStart⟩]) := by
  have hbytes : r.bytes + b.length = Chunk.total (r.chunks ++ [⟨b, cleanStart⟩]) := by
    simp [r.bytes_eq]
  obtain ⟨hkept, hlongest⟩ := evict_longest r.limit hbytes
  refine ⟨hkept.trans (suffix_append_self_iff.mpr h.1), fun s hs hfits => ?_⟩
  apply hlongest s _ hfits
  -- what is not empty ends in the new chunk, and what stands before it fitted already
  rcases suffix_concat_iff.mp hs with rfl | ⟨init, rfl, hinit⟩
  · exact nil_suffix
  · rw [Chunk.total_append] at hfits
    exact suffix_append_self_iff.mpr
      (h.2 init hinit (Nat.le_trans (Nat.le_add_right _ _) hfits))

/-- `snapshot` (`ring.go:48-68`): from the oldest chunk with a clean start on. -/
def snapshot (r : Ring) : GoString :=
  (r.chunks.dropWhile (fun c => !c.cleanStart)).flatMap (fun c => c.b)

end Ring

end Lemul.PtySession
