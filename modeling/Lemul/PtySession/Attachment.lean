import Lemul.Misc.GoString

/-!
# Attachments

`internal/ptysession/attachment.go`: one client's queue of output. Each function is one
section under the attachment's mutex. `push` copies what it is given, so a queued chunk is
a value.
-/

namespace Lemul.PtySession

/-- `CloseReason` (`attachment.go:7-18`). -/
inductive CloseReason where
  | none
  | sessionEnded
  | detached
  | overflow
  deriving DecidableEq, Repr

/-- The bytes in a queue. -/
def queueBytes (q : List GoString) : Nat := (q.map List.length).sum

/-- `Attachment` (`attachment.go:41-52`), with a counter that is right and a limit that is
kept. -/
structure Attachment where
  readOnly : Bool
  q : List GoString
  queued : Nat
  limit : Nat
  closed : Bool
  reason : CloseReason
  queued_eq : queued = queueBytes q
  queued_le : queued ≤ limit

/-- What `Next` returns: a chunk, or that the attachment is closed and why. -/
inductive NextResult where
  | bytes (p : GoString)
  | closed (reason : CloseReason)
  deriving DecidableEq, Repr

namespace Attachment

/-- `defaultQueueBytes` (`session.go:30`). -/
def defaultQueueBytes : Nat := 4 * 2 ^ 20

/-- `newAttachment` (`attachment.go:54-61`). -/
def new (readOnly : Bool) (limit : Int) : Attachment where
  readOnly := readOnly
  q := []
  queued := 0
  limit := if limit ≤ 0 then defaultQueueBytes else limit.toNat
  closed := false
  reason := .none
  queued_eq := rfl
  queued_le := Nat.zero_le _

/-- `push` (`attachment.go:64-84`). A client that is too far behind loses the attachment,
not bytes. -/
def push (a : Attachment) (p : GoString) : Attachment :=
  if p = [] ∨ a.closed then a
  else if h : a.limit < a.queued + p.length then
    { a with
      closed := true
      reason := .overflow
      q := []
      queued := 0
      queued_eq := rfl
      queued_le := Nat.zero_le _ }
  else
    { a with
      q := a.q ++ [p]
      queued := a.queued + p.length
      queued_eq := by simp [queueBytes, a.queued_eq]
      queued_le := by omega }

/-- `Next` (`attachment.go:88-101`), where it does not block. -/
def next (a : Attachment) : Option (NextResult × Attachment) :=
  match h : a.q with
  | p :: rest =>
      some (.bytes p, { a with
        q := rest
        queued := a.queued - p.length
        queued_eq := by simp [a.queued_eq, h, queueBytes]
        queued_le := by
          have hle := a.queued_le
          omega })
  | [] => if a.closed then some (.closed a.reason, a) else none

/-- `close` (`attachment.go:125-134`): the first reason stands. -/
def close (a : Attachment) (reason : CloseReason) : Attachment :=
  if a.closed then a else { a with closed := true, reason := reason }

/-! ## What each of them does -/

section Push

variable {a : Attachment} {p : GoString}

@[simp] theorem push_nil (a : Attachment) : a.push [] = a := by simp [push]

theorem push_of_closed (h : a.closed = true) : a.push p = a := by simp [push, h]

/-- A push to an open attachment appends, or closes it for overflow and empties it. -/
theorem push_cases (h : a.closed = false) :
    (a.push p).closed = false ∧ (a.push p).q.flatten = a.q.flatten ++ p ∨
      (a.push p).closed = true ∧ (a.push p).reason = .overflow ∧ (a.push p).q = [] := by
  by_cases hp : p = []
  · subst hp
    rw [push_nil, List.append_nil]
    exact .inl ⟨h, rfl⟩
  · simp only [push, hp, h, Bool.false_eq_true, or_self, if_false]
    split
    · exact .inr ⟨rfl, rfl, rfl⟩
    · exact .inl ⟨rfl, by simp⟩

/-- As long as there is room a push queues one more chunk. -/
theorem push_fits (h : a.closed = false) (hp : p ≠ []) (hfits : a.queued + p.length ≤ a.limit) :
    (a.push p).q = a.q ++ [p] ∧ (a.push p).closed = false ∧ (a.push p).limit = a.limit ∧
      (a.push p).queued = a.queued + p.length := by
  have hskip : ¬(p = [] ∨ a.closed = true) := by
    rintro (hnil | hclosed)
    · exact hp hnil
    · cases h.symm.trans hclosed
  rw [push, if_neg hskip, dif_neg (Nat.not_lt.mpr hfits)]
  exact ⟨rfl, h, rfl, rfl⟩

/-- The queue after a push: as before, with the chunk, or lost. -/
theorem push_queue (a : Attachment) (p : GoString) :
    ((a.push p).q = a.q ∨ (a.push p).q = a.q ++ [p]) ∧ (a.push p).closed = a.closed ∨
      (a.push p).q = [] ∧ (a.push p).closed = true := by
  unfold push
  split
  · exact .inl ⟨.inl rfl, rfl⟩
  · split
    · exact .inr ⟨rfl, rfl⟩
    · exact .inl ⟨.inr rfl, rfl⟩

end Push

section Next

variable {a a' : Attachment}

theorem next_bytes {p : GoString} (h : a.next = some (.bytes p, a')) :
    a.q = p :: a'.q ∧ a'.closed = a.closed ∧ a'.reason = a.reason := by
  unfold next at h
  split at h
  · rename_i q rest hq
    cases h
    exact ⟨hq, rfl, rfl⟩
  · split at h <;> cases h

/-- What is queued is returned, closed or not. -/
theorem next_of_cons {p : GoString} {rest : List GoString} (h : a.q = p :: rest) :
    ∃ a', a.next = some (.bytes p, a') := by
  unfold next
  split
  · rename_i q tail hq
    cases h.symm.trans hq
    exact ⟨_, rfl⟩
  · rename_i hq
    cases h.symm.trans hq

theorem next_closed {reason : CloseReason} (h : a.next = some (.closed reason, a')) :
    a.q = [] ∧ a.closed = true ∧ a.reason = reason ∧ a' = a := by
  unfold next at h
  split at h
  · cases h
  · rename_i hq
    split at h <;> cases h
    rename_i hclosed
    exact ⟨hq, hclosed, rfl, rfl⟩

end Next

section Close

variable {a : Attachment} {reason : CloseReason}

@[simp] theorem close_q : (a.close reason).q = a.q := by
  unfold close
  split <;> rfl

@[simp] theorem close_closed : (a.close reason).closed = true := by
  unfold close
  split
  · assumption
  · rfl

theorem close_of_closed (h : a.closed = true) : a.close reason = a := by simp [close, h]

theorem close_reason (h : a.closed = false) : (a.close reason).reason = reason := by
  simp [close, h]

end Close

end Attachment

end Lemul.PtySession
