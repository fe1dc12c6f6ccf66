import Mathlib

/-!
# Frames on a byte stream

A `Framing` is a self-delimiting code: what is decoded from the front of a stream is
determined by the stream, and is what was encoded. A `Link` is one direction of a stream
that keeps its order or fails. Its writer hands a frame over in several buffers, any of
which can be cut short by a failure; its reader takes whole frames. `Carries` says which
frames have been handed over and not taken: whatever the interleaving and wherever the
writer fails, the reader sees exactly these, in order.
-/

namespace Lemul

open List

/-- A self-delimiting code for frames `F` over an alphabet `α`. -/
structure Framing (α F : Type) where
  encode : F → List α
  /-- The first frame of a stream and what follows it, if all of it is there. -/
  decode : List α → Option (F × List α)
  encode_ne_nil : ∀ f, encode f ≠ []
  decode_eq_some : ∀ s f rest, decode s = some (f, rest) ↔ s = encode f ++ rest

/-- What follows a frame does not matter to it. -/
theorem Framing.decode_append {α F : Type} (C : Framing α F) {s rest : List α} {f : F}
    (h : C.decode s = some (f, rest)) (t : List α) : C.decode (s ++ t) = some (f, rest ++ t) := by
  rw [C.decode_eq_some] at h ⊢
  rw [h, append_assoc]

/-- One direction of a stream. -/
structure Link (α : Type) where
  /-- Written and not yet read. -/
  wire : List α
  /-- The buffers that the frame being written still consists of. -/
  pending : List (List α)
  /-- A write has failed, and the writer has given up. -/
  broken : Bool
  deriving DecidableEq, Repr

namespace Link

variable {α F : Type}

/-- A stream on which nothing was written. -/
def idle : Link α := ⟨[], [], false⟩

/-- The writer starts on a frame. -/
def start (l : Link α) (buffers : List (List α)) : Link α := { l with pending := buffers }

/-- The next buffer is written: all of it, or, when the write fails, some first part. -/
def write (l : Link α) (n : Nat) (ok : Bool) : Option (Link α) :=
  match l.pending with
  | [] => none
  | b :: rest =>
      if ok then
        if n = b.length then some { l with wire := l.wire ++ b, pending := rest } else none
      else if n ≤ b.length then
        some { wire := l.wire ++ b.take n, pending := [], broken := true }
      else none

/-- The reader takes a frame. -/
def read (C : Framing α F) (l : Link α) : Option (F × Link α) :=
  (C.decode l.wire).map (fun r => (r.1, { l with wire := r.2 }))

/-- The frames on a link: begun by the writer and not yet taken by the reader. -/
def Carries (C : Framing α F) (l : Link α) (queue : List F) : Prop :=
  ∃ missing, l.wire ++ missing = queue.flatMap C.encode ∧
    (l.broken = false → missing = l.pending.flatten)

theorem carries_idle (C : Framing α F) : Carries C idle [] := ⟨[], rfl, fun _ => rfl⟩

variable {C : Framing α F} {l l' : Link α} {queue : List F} {f : F}

theorem Carries.start (h : Carries C l queue) (hbroken : l.broken = false)
    (hpending : l.pending = []) {buffers : List (List α)}
    (hbuffers : buffers.flatten = C.encode f) :
    Carries C (l.start buffers) (queue ++ [f]) := by
  obtain ⟨missing, hwire, hmissing⟩ := h
  have hnone : missing = [] := by
    rw [hmissing hbroken, hpending]
    rfl
  refine ⟨buffers.flatten, ?_, fun _ => rfl⟩
  rw [hnone, append_nil] at hwire
  rw [hbuffers, flatMap_append, ← hwire]
  simp [Link.start]

/-- Whether a write succeeds or fails, the frames on the link are the same. -/
theorem Carries.write {n : Nat} {ok : Bool} (h : Carries C l queue)
    (hbroken : l.broken = false) (hwrite : l.write n ok = some l') : Carries C l' queue := by
  obtain ⟨missing, hwire, hmissing⟩ := h
  unfold Link.write at hwrite
  split at hwrite
  · cases hwrite
  · rename_i b rest hpending
    have hleft : missing = b ++ rest.flatten := by
      rw [hmissing hbroken, hpending]
      rfl
    rw [hleft] at hwire
    split at hwrite
    · split at hwrite <;> cases hwrite
      refine ⟨rest.flatten, ?_, fun _ => rfl⟩
      rw [← hwire, append_assoc]
    · split at hwrite <;> cases hwrite
      refine ⟨b.drop n ++ rest.flatten, ?_, nofun⟩
      rw [← hwire]
      simp [append_assoc, ← append_assoc (b.take n)]

theorem write_broken {n : Nat} {ok : Bool} (h : l.write n ok = some l') :
    l'.broken = (l.broken || !ok) := by
  unfold Link.write at h
  split at h
  · cases h
  · split at h
    · rename_i hok
      split at h <;> cases h
      simp [hok]
    · rename_i hok
      split at h <;> cases h
      simp [hok]

/-- What the reader takes is the first of the frames on the link. -/
theorem Carries.read (h : Carries C l queue) (hread : l.read C = some (f, l')) :
    ∃ rest, queue = f :: rest ∧ Carries C l' rest := by
  obtain ⟨missing, hwire, hmissing⟩ := h
  obtain ⟨⟨f, tail⟩, hdecode, heq⟩ := Option.map_eq_some_iff.mp hread
  cases heq
  have htaken : l.wire = C.encode f ++ tail := (C.decode_eq_some _ _ _).mp hdecode
  cases queue with
  | nil =>
    have hnil : l.wire = [] := (append_eq_nil_iff.mp hwire).1
    rw [hnil] at htaken
    exact absurd (append_eq_nil_iff.mp htaken.symm).1 (C.encode_ne_nil f)
  | cons g rest =>
    -- the front of one stream decodes to one frame
    have hboth := C.decode_append hdecode missing
    rw [hwire, flatMap_cons, (C.decode_eq_some _ _ _).mpr rfl] at hboth
    obtain ⟨rfl, hrest⟩ := Prod.mk.inj (Option.some.inj hboth)
    exact ⟨rest, rfl, missing, hrest.symm, hmissing⟩

theorem read_pending (h : l.read C = some (f, l')) :
    l'.pending = l.pending ∧ l'.broken = l.broken := by
  obtain ⟨⟨g, tail⟩, hdecode, heq⟩ := Option.map_eq_some_iff.mp h
  cases heq
  exact ⟨rfl, rfl⟩

end Link

end Lemul
