import Lemul.MgmtApi.Footprint

/-!
# What a reply says about the driver

A runner answers a stop with `MsgOK` even if its driver could not preserve the disk
(`runner.go:127-141`). The lemmas here say, for the commands sent in a run, what the
driver did if a reply was read.
-/

namespace Lemul.MgmtApi

open Store List

variable {cfg : Config} {d : Driver} {tid : Nat} {o : Op} {r : Res o} {s s' : World} {sid : Nat}

/-! ## Streams -/

variable {st : Stream} {hd : Handling} {e : EnvMove}

/-- A stream is as it was, or it is new and unanswered. -/
theorem exec_stream_at (h : exec tid o r s = some s')
    (hst : s'.streams[sid]? = some st) : s.streams[sid]? = some st ∨ st.reply = none := by
  by_cases hsends : o.sends = false
  · rw [(exec_frame h).streams hsends] at hst
    exact .inl hst
  · cases o <;> try exact absurd rfl hsends
    simp only [exec] at h
    split at h
    · cases h
      exact .inl hst
    · split at h <;> cases h
      dsimp only at hst
      rw [getElem?_append] at hst
      split at hst
      · exact .inl hst
      · rw [mem_singleton.mp (mem_of_getElem? hst)]
        exact .inr rfl

/-- What the environment does to the streams: nothing, or one of them is answered. -/
theorem envStep_streams (h : envStep d e s = some s') :
    s'.streams = s.streams ∨ ∃ sid hd st reply, e = .handle sid hd ∧ s.streams[sid]? = some st ∧
      st.reply = none ∧ handle d sid hd st s = some s' ∧
      s'.streams = s.streams.set sid { st with handling := some hd, reply := some reply } := by
  cases envStep_rule h with
  | handle hst hnone hhandle =>
    obtain ⟨reply, hset, -⟩ := handle_streams hhandle
    exact .inr ⟨_, _, _, reply, rfl, hst, hnone, hhandle, hset⟩
  | _ => exact .inl rfl

/-- The command of a stream never changes, and an answer is final. -/
theorem envStep_stream_kept (h : envStep d e s = some s') (hst : s.streams[sid]? = some st) :
    ∃ st', s'.streams[sid]? = some st' ∧ st'.command = st.command ∧
      (∀ reply, st.reply = some reply → st'.reply = some reply) := by
  rcases envStep_streams h with hsame | ⟨sid', hd, st₀, reply, -, hst₀, hnone, -, hset⟩
  · exact ⟨st, by rw [hsame]; exact hst, rfl, fun _ h => h⟩
  · rw [hset]
    by_cases heq : sid' = sid
    · subst heq
      cases hst.symm.trans hst₀
      refine ⟨_, getElem?_set_self (List.getElem?_eq_some_iff.mp hst).1, rfl, ?_⟩
      intro reply' hreply'
      cases hnone.symm.trans hreply'
    · rw [getElem?_set_ne heq]
      exact ⟨st, hst, rfl, fun _ h => h⟩

/-! ## Stops -/

/-- `id` is a snapshot of the volume of the task `ref`. -/
def TaskSnapshot (s : World) (ref id : GoString) : Prop :=
  ∃ x ∈ s.snapshots, x.id = id ∧ ∃ t, s.tasks[x.task]? = some t ∧ t.ref = ref

theorem TaskSnapshot.grows {ref id : GoString} (hgrows : s.Grows s') (h : TaskSnapshot s ref id) :
    TaskSnapshot s' ref id := by
  obtain ⟨x, hx, hid, t, ht, href⟩ := h
  obtain ⟨x', hx', hid', htask⟩ := hgrows.snapshot x hx
  obtain ⟨t', ht', -, -, href'⟩ := hgrows.task x.task t ht
  exact ⟨x', hx', hid'.trans hid, t', htask ▸ ht', href'.trans href⟩

/-- What an answer other than an error to a stop means: the driver's `Stop` succeeded, the
reply is what it preserved, and if that is not empty it is a snapshot of the task's
volume. -/
def StopAnswered (d : Driver) (s : World) (st : Stream) : Prop :=
  ∀ m reply, st.command = .stopWorkspace m → st.reply = some reply →
    (∀ err, reply ≠ .error err) →
    ∃ volumeOf createSnapshot, st.handling = some (.stopped volumeOf createSnapshot) ∧
      reply = .stopped (d.preserved m.ref m.snapshot volumeOf createSnapshot) ∧
      (d.preserved m.ref m.snapshot volumeOf createSnapshot ≠ [] →
        TaskSnapshot s m.ref (d.preserved m.ref m.snapshot volumeOf createSnapshot))

theorem StopAnswered.grows (hgrows : s.Grows s') (h : StopAnswered d s st) :
    StopAnswered d s' st := by
  intro m reply hcommand hreply herror
  obtain ⟨v, c, hhandling, hsame, hsnapshot⟩ := h m reply hcommand hreply herror
  exact ⟨v, c, hhandling, hsame, fun hne => (hsnapshot hne).grows hgrows⟩

theorem stopAnswered_of_unanswered (h : st.reply = none) : StopAnswered d s st := by
  intro m reply _ hreply
  cases h.symm.trans hreply

theorem set_reply_inj {streams : List Stream} {x y : Reply} (hsid : sid < streams.length)
    (h : streams.set sid { st with handling := some hd, reply := some x } =
      streams.set sid { st with handling := some hd, reply := some y }) : x = y := by
  have hat := congrArg (fun l => (l[sid]?).bind Stream.reply) h
  simpa [getElem?_set_self hsid] using hat

/-- The runner's own answer (`runner.go:106-141`). -/
theorem handle_stopAnswered {reply : Reply} (h : handle d sid hd st s = some s')
    (hsid : sid < s.streams.length)
    (hset : s'.streams = s.streams.set sid { st with handling := some hd, reply := some reply }) :
    StopAnswered d s' { st with handling := some hd, reply := some reply } := by
  intro m reply' hcommand hreply herror
  cases hreply
  have hstop : st.command = .stopWorkspace m := hcommand
  cases handle_rule h with
  | stopFailed => exact absurd (set_reply_inj hsid hset).symm (herror _)
  | stopped hcommand' hnil =>
    cases hcommand'.symm.trans hstop
    refine ⟨_, _, rfl, ?_⟩
    rw [← set_reply_inj hsid hset, hnil]
    exact ⟨rfl, fun hne => absurd rfl hne⟩
  | preserved hcommand' _ hi =>
    cases hcommand'.symm.trans hstop
    refine ⟨_, _, rfl, (set_reply_inj hsid hset).symm, fun _ => ?_⟩
    obtain ⟨hlt, href, -⟩ := findIdx?_eq_some_iff_getElem.mp hi
    obtain ⟨t', ht', -, -, href'⟩ :=
      (s.stopped_grows m.ref).task _ _ (getElem?_eq_getElem hlt)
    exact ⟨_, mem_append_right _ (mem_singleton_self _), rfl, t', ht',
      href'.trans (by simpa using href)⟩
  | _ hcommand' => cases hcommand'.symm.trans hstop

/-- The streams opened since there were `n` of them. -/
def StopsAnswered (d : Driver) (n : Nat) (s : World) : Prop :=
  ∀ sid st, n ≤ sid → s.streams[sid]? = some st → StopAnswered d s st

theorem StopsAnswered.exec {n : Nat} (h : StopsAnswered d n s)
    (hexec : exec tid o r s = some s') : StopsAnswered d n s' := by
  intro sid st hn hst
  rcases exec_stream_at hexec hst with hold | hnew
  · exact (h sid st hn hold).grows (exec_grows hexec)
  · exact stopAnswered_of_unanswered hnew

theorem StopsAnswered.env {n : Nat} (h : StopsAnswered d n s)
    (henv : envStep d e s = some s') : StopsAnswered d n s' := by
  intro sid st hn hst
  have hgrows := envStep_grows henv
  rcases envStep_streams henv with hsame | ⟨sid', hd, st₀, reply, -, hst₀, -, hhandle, hset⟩
  · rw [hsame] at hst
    exact (h sid st hn hst).grows hgrows
  · have hlt := (List.getElem?_eq_some_iff.mp hst₀).1
    by_cases heq : sid' = sid
    · subst heq
      rw [hset, getElem?_set_self hlt] at hst
      cases hst
      exact handle_stopAnswered hhandle hlt hset
    · rw [hset, getElem?_set_ne heq] at hst
      exact (h sid st hn hst).grows hgrows

section Run

variable {α : Type} {p : Api α} {a : α} {tr : Trace Op Res}

theorem run_sent {runner : Tunnel} {c : Command} (hrun : p.Runs (machine cfg) tid s tr a s')
    (hsent : ⟨.send runner c, .ok sid⟩ ∈ tr) :
    s.streams.length ≤ sid ∧ ∃ st, s'.streams[sid]? = some st ∧ st.command = c := by
  refine Prog.Runs.of_mem (J := fun s₁ => s.streams.length ≤ s₁.streams.length)
    (I := fun s₁ => s.streams.length ≤ sid ∧ ∃ st, s₁.streams[sid]? = some st ∧ st.command = c)
    ?_ ?_ ?_ hrun (Nat.le_refl _) hsent
  · intro s₁ s₂ hlen hexec
    simp only [machine, exec] at hexec
    split at hexec <;> cases hexec
    rename_i hsid
    exact ⟨hsid ▸ hlen, _, by rw [hsid]; exact getElem?_concat_length, rfl⟩
  · intro o r s₁ s₂ hexec
    have hgrow := (exec_frame hexec).opened
    refine ⟨fun hlen => Nat.le_trans hlen hgrow.length_le, ?_⟩
    rintro ⟨hnew, st, hst, hcommand⟩
    exact ⟨hnew, st, getElem?_grown hgrow hst, hcommand⟩
  · intro e s₁ s₂ henv
    refine ⟨fun hlen => Nat.le_trans hlen (Nat.le_of_eq (envStep_streams_length henv).symm), ?_⟩
    rintro ⟨hnew, st, hst, hcommand⟩
    obtain ⟨st', hst', hsame, -⟩ := envStep_stream_kept henv hst
    exact ⟨hnew, st', hst', hsame.trans hcommand⟩

theorem run_read {reply : Reply} (hrun : p.Runs (machine cfg) tid s tr a s')
    (hread : ⟨.recv sid, .ok reply⟩ ∈ tr) :
    ∃ st, s'.streams[sid]? = some st ∧ st.reply = some reply := by
  refine Prog.Runs.of_mem (J := fun _ => True)
    (I := fun s₁ => ∃ st, s₁.streams[sid]? = some st ∧ st.reply = some reply)
    ?_ ?_ ?_ hrun trivial hread
  · intro s₁ s₂ _ hexec
    simp only [machine, exec] at hexec
    split at hexec <;> cases hexec
    rename_i hreply
    exact Option.bind_eq_some_iff.mp hreply
  · rintro o r s₁ s₂ hexec
    refine ⟨id, ?_⟩
    rintro ⟨st, hst, hreply⟩
    exact ⟨st, getElem?_grown (exec_frame hexec).opened hst, hreply⟩
  · intro e s₁ s₂ henv
    refine ⟨id, ?_⟩
    rintro ⟨st, hst, hreply⟩
    obtain ⟨st', hst', -, hkept⟩ := envStep_stream_kept henv hst
    exact ⟨st', hst', hkept reply hreply⟩

/-- A stop that was sent in a run, and whose answer was read in it and is no error. -/
theorem stop_acknowledged {runner : Tunnel} {m : StopWorkspace} {reply : Reply}
    (hrun : p.Runs (machine cfg) tid s tr a s')
    (hsent : ⟨.send runner (.stopWorkspace m), .ok sid⟩ ∈ tr)
    (hread : ⟨.recv sid, .ok reply⟩ ∈ tr) (hreply : ∀ err, reply ≠ .error err) :
    ∃ st volumeOf createSnapshot, s'.streams[sid]? = some st ∧
      st.handling = some (.stopped volumeOf createSnapshot) ∧
      reply = .stopped (cfg.driver.preserved m.ref m.snapshot volumeOf createSnapshot) ∧
      (cfg.driver.preserved m.ref m.snapshot volumeOf createSnapshot ≠ [] →
        TaskSnapshot s' m.ref
          (cfg.driver.preserved m.ref m.snapshot volumeOf createSnapshot)) := by
  obtain ⟨hnew, st, hst, hcommand⟩ := run_sent hrun hsent
  obtain ⟨st', hst', hanswer⟩ := run_read hrun hread
  cases hst.symm.trans hst'
  have hanswered : StopsAnswered cfg.driver s.streams.length s' :=
    hrun.preserves (fun _ _ _ _ hexec h => h.exec hexec) (fun _ _ _ henv h => h.env henv)
      fun i st hi hst => absurd (List.getElem?_eq_some_iff.mp hst).1 (Nat.not_lt.mpr hi)
  obtain ⟨v, c, hhandling, hsame, hsnapshot⟩ :=
    hanswered sid st hnew hst m reply hcommand hanswer hreply
  exact ⟨st, v, c, hst, hhandling, hsame, hsnapshot⟩

end Run

end Lemul.MgmtApi
