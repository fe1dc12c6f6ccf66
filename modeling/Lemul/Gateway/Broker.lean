import Lemul.Misc.Lts
import Lemul.Supervisor.Sessions

/-!
# The broker's proxies

`Open`, `LastRequest`, `Close` and `CloseAll` of the broker (`internal/gateway/proxy.go:122-204`),
called by any goroutines at any time. A section under the broker's mutex is one step, and so is
each of `net.Listen`, the start of `Serve` in its goroutine and `srv.Close`.

`Open` asks, listens and registers in three steps. Between the first and the last of them a
second `Open` of the same id finds nothing either, and of the two proxies only one is registered.
-/

namespace Lemul.Gateway.Proxies

open List

open Supervisor.Sessions (SessionProxy)

/-- A call under way, after its first locked section. -/
inductive Call where
  /-- `Open`, which has found no proxy. -/
  | missed (id : GoString)
  /-- `Open`, before it registers its proxy. -/
  | listened (sp : SessionProxy)
  /-- `Close` and `CloseAll`, with the servers they have yet to close. -/
  | closing (sps : List SessionProxy)
  deriving DecidableEq

/-- The id that an `Open` is for. -/
def Call.opens : Call → Option GoString
  | .missed id => some id
  | .listened sp => some sp.sessionID
  | .closing _ => none

/-- The proxies only this call knows. -/
def Call.holds : Call → List SessionProxy
  | .missed _ => []
  | .listened sp => [sp]
  | .closing sps => sps

/-- The broker and the calls under way. -/
structure State where
  /-- `sessions`, whose keys are the ids of the proxies. -/
  registered : List SessionProxy
  /-- The proxies whose listener is open. -/
  listening : List SessionProxy
  /-- Those whose server has got the listener from `Serve`. -/
  serving : List SessionProxy
  /-- Those whose server was closed before `Serve`. -/
  shut : List SessionProxy
  /-- How many listeners have been opened. -/
  opened : Nat
  calls : List Call
  /-- What `Open` has returned and no `Close` or `CloseAll` has been called for since. -/
  returned : List SessionProxy

def State.new : State := ⟨[], [], [], [], 0, [], []⟩

/-- A call that has servers to close goes on. -/
def closing (sps : List SessionProxy) (calls : List Call) : List Call :=
  if sps = [] then calls else .closing sps :: calls

/-- `Close` and `CloseAll` under the mutex, for the proxies `p`. -/
def State.take (s : State) (p : SessionProxy → Bool) : State :=
  { s with
    registered := s.registered.filter (!p ·)
    calls := closing (s.registered.filter p) s.calls
    returned := s.returned.filter (!p ·) }

inductive Move where
  /-- `Open`, first section (`proxy.go:123-128`). -/
  | lookup (id : GoString)
  /-- `net.Listen`: the port, or an error. -/
  | listen (id : GoString) (port : Option Nat)
  /-- `Open`, second section (`proxy.go:159-161`). -/
  | register (sp : SessionProxy)
  /-- The goroutine of `Serve` starts (`proxy.go:157`). It closes a listener its server does not
  want any more. -/
  | serve (sp : SessionProxy)
  /-- `Close` (`proxy.go:185-188`). -/
  | close (id : GoString)
  /-- `CloseAll` (`proxy.go:195-201`). -/
  | closeAll
  /-- `srv.Close` of the next proxy of a `Close` or `CloseAll`. -/
  | closeServer (sp : SessionProxy) (rest : List SessionProxy)
  /-- `LastRequest` (`proxy.go:172-181`), and whether there is a proxy. -/
  | lastRequest (id : GoString) (found : Bool)
  deriving DecidableEq

def broker : Lts State Move where
  step s
    | .lookup id =>
        match s.registered.find? (·.sessionID = id) with
        | some sp => some { s with returned := sp :: s.returned }
        | none => some { s with calls := .missed id :: s.calls }
    | .listen id port =>
        if .missed id ∈ s.calls then
          match port with
          | none => some { s with calls := s.calls.erase (.missed id) }
          | some port =>
              if port ∈ s.listening.map (·.port) then none
              else
                let sp : SessionProxy := ⟨s.opened, id, port⟩
                some { s with
                  listening := sp :: s.listening
                  opened := s.opened + 1
                  calls := .listened sp :: s.calls.erase (.missed id) }
        else none
    | .register sp =>
        if .listened sp ∈ s.calls then
          some { s with
            registered := sp :: s.registered.filter (·.sessionID ≠ sp.sessionID)
            calls := s.calls.erase (.listened sp)
            returned := sp :: s.returned }
        else none
    | .serve sp =>
        if sp ∈ s.listening ∧ sp ∉ s.serving then
          if sp ∈ s.shut then some { s with listening := s.listening.erase sp }
          else some { s with serving := sp :: s.serving }
        else none
    | .close id => some (s.take (·.sessionID = id))
    | .closeAll => some (s.take fun _ => true)
    | .closeServer sp rest =>
        if .closing (sp :: rest) ∈ s.calls then
          let calls := closing rest (s.calls.erase (.closing (sp :: rest)))
          if sp ∈ s.serving then some { s with calls, listening := s.listening.erase sp }
          else some { s with calls, shut := sp :: s.shut }
        else none
    | .lastRequest id found =>
        if found = s.registered.any (·.sessionID = id) then some s else none

/-- No `Open` begins while another one of the same id is under way, and no server is closed
before it serves. -/
def Move.Alone (s : State) : Move → Prop
  | .lookup id => ∀ c ∈ s.calls, c.opens ≠ some id
  | .closeServer sp _ => sp ∈ s.serving
  | _ => True

instance (s : State) : DecidablePred (Move.Alone s) := fun l => by
  unfold Move.Alone
  split <;> infer_instance

/-- Every open listener is registered or in the hands of one call, and there is one proxy to an
id. -/
structure Kept (s : State) : Prop where
  owned : s.listening.Perm (s.registered ++ s.calls.flatMap Call.holds)
  once : s.listening.Nodup
  numbered : ∀ sp ∈ s.listening, sp.number < s.opened
  ids : (s.registered.map (·.sessionID) ++ s.calls.filterMap Call.opens).Nodup
  returned : ∀ sp ∈ s.returned, sp ∈ s.registered
  shut : s.shut = []

section Steps

variable {s s' : State} {c : Call} {sp : SessionProxy} {sps : List SessionProxy}
  {calls : List Call} {l : Move} {tr : List Move}

@[simp] theorem closing_holds : (closing sps calls).flatMap Call.holds =
    sps ++ calls.flatMap Call.holds := by
  unfold closing
  split
  · rename_i hnone
    rw [hnone, nil_append]
  · rfl

@[simp] theorem closing_opens :
    (closing sps calls).filterMap Call.opens = calls.filterMap Call.opens := by
  unfold closing
  split <;> rfl

/-- The order of the calls does not matter. -/
theorem Kept.front (h : Kept s) (hc : c ∈ s.calls) :
    Kept { s with calls := c :: s.calls.erase c } := by
  have hperm := perm_cons_erase hc
  exact { h with
    owned := h.owned.trans ((hperm.flatMap_right _).append_left _)
    ids := ((hperm.filterMap _).append_left _).nodup_iff.mp h.ids }

/-- Proxies are taken out of the broker by the call that closes them. -/
theorem Kept.take (h : Kept s) (p : SessionProxy → Bool) : Kept (s.take p) := by
  refine { h with owned := ?_, ids := ?_, returned := ?_ }
  · simp only [State.take, closing_holds, ← append_assoc]
    refine h.owned.trans (Perm.append_right _ ?_)
    exact (filter_append_perm p s.registered).symm.trans perm_append_comm
  · simp only [State.take, closing_opens]
    exact h.ids.sublist ((filter_sublist.map _).append_right _)
  · intro sp hsp
    obtain ⟨hret, hkept⟩ := mem_filter.mp hsp
    exact mem_filter.mpr ⟨h.returned sp hret, hkept⟩

/-- An `Open` that misses is the only one of its id. -/
theorem Kept.missed {id : GoString} (h : Kept s)
    (hnone : s.registered.find? (·.sessionID = id) = none)
    (halone : ∀ c ∈ s.calls, c.opens ≠ some id) :
    Kept { s with calls := .missed id :: s.calls } := by
  refine { h with ids := ?_ }
  refine nodup_middle.mpr (nodup_cons.mpr ⟨fun hid => ?_, h.ids⟩)
  rcases mem_append.mp hid with hid | hid
  · obtain ⟨sp, hsp, rfl⟩ := mem_map.mp hid
    simpa using find?_eq_none.mp hnone sp hsp
  · obtain ⟨c, hc, hopens⟩ := mem_filterMap.mp hid
    exact halone c hc hopens

theorem Kept.listened {id : GoString} {port : Nat}
    (h : Kept { s with calls := .missed id :: calls }) :
    Kept { s with
      listening := ⟨s.opened, id, port⟩ :: s.listening
      opened := s.opened + 1
      calls := .listened ⟨s.opened, id, port⟩ :: calls } where
  owned := (h.owned.cons _).trans perm_middle.symm
  once := nodup_cons.mpr ⟨fun hsp => Nat.lt_irrefl _ (h.numbered _ hsp), h.once⟩
  numbered := forall_mem_cons.mpr
    ⟨Nat.lt_succ_self _, fun sp hsp => Nat.lt_succ_of_lt (h.numbered sp hsp)⟩
  ids := h.ids
  returned := h.returned
  shut := h.shut

/-- A proxy that is registered takes the place of no other one. -/
theorem Kept.registered (h : Kept { s with calls := .listened sp :: calls }) :
    Kept { s with
      registered := sp :: s.registered.filter (·.sessionID ≠ sp.sessionID)
      calls := calls
      returned := sp :: s.returned } := by
  have hids := nodup_cons.mp (nodup_middle.mp h.ids)
  have hother : s.registered.filter (·.sessionID ≠ sp.sessionID) = s.registered := by
    refine filter_eq_self.mpr fun other hother => decide_eq_true fun heq => hids.1 ?_
    exact mem_append_left _ (mem_map.mpr ⟨other, hother, heq⟩)
  rw [hother]
  exact { h with
    owned := h.owned.trans perm_middle
    ids := nodup_cons.mpr hids
    returned := forall_mem_cons.mpr ⟨mem_cons_self, fun other hret =>
      mem_cons_of_mem _ (h.returned other hret)⟩ }

theorem Kept.closed (h : Kept { s with calls := .closing (sp :: sps) :: calls }) :
    Kept { s with calls := closing sps calls, listening := s.listening.erase sp } := by
  have howned := (h.owned.trans perm_middle).erase sp
  rw [erase_cons_head] at howned
  refine { h with owned := ?_, once := h.once.erase sp, numbered := ?_, ids := ?_ }
  · rw [closing_holds]
    exact howned
  · exact fun other hother => h.numbered other (mem_of_mem_erase hother)
  · rw [closing_opens]
    exact h.ids

theorem Kept.step (h : Kept s) (hcond : l.Alone s) (hstep : broker.step s l = some s') :
    Kept s' := by
  cases l with
  | lookup id =>
    simp only [broker] at hstep
    split at hstep <;> cases hstep
    · rename_i sp hfound
      have hreturned := forall_mem_cons.mpr ⟨mem_of_find?_eq_some hfound, h.returned⟩
      exact { h with returned := hreturned }
    · rename_i hnone
      exact h.missed hnone hcond
  | listen id port =>
    simp only [broker] at hstep
    split at hstep
    · rename_i hmissed
      have hfront := h.front hmissed
      split at hstep
      · cases hstep
        exact { hfront with ids := (nodup_cons.mp (nodup_middle.mp hfront.ids)).2 }
      · split at hstep <;> cases hstep
        exact hfront.listened
    · cases hstep
  | register sp =>
    simp only [broker] at hstep
    split at hstep <;> cases hstep
    rename_i hlistened
    exact (h.front hlistened).registered
  | serve sp =>
    have hshut : sp ∉ s.shut := by
      rw [h.shut]
      exact not_mem_nil
    simp only [broker, hshut, if_false] at hstep
    split at hstep <;> cases hstep
    exact { h with }
  | close id | closeAll =>
    cases hstep
    exact h.take _
  | closeServer sp rest =>
    have hserving : sp ∈ s.serving := hcond
    simp only [broker, hserving, if_true] at hstep
    split at hstep <;> cases hstep
    rename_i hclosing
    exact (h.front hclosing).closed
  | lastRequest id found =>
    simp only [broker] at hstep
    split at hstep <;> cases hstep
    exact h

/-- In every run in which no `Open` begins while another one of the same id is under way and no
server is closed before it serves: whenever no call is under way, the open listeners are the
registered ones, there is one to an id, and what `Open` has returned is registered as long as
nothing has closed it. -/
theorem one_proxy_per_session (h : (broker.restrict Move.Alone).Run .new tr s)
    (hidle : s.calls = []) :
    (∀ sp, sp ∈ s.listening ↔ sp ∈ s.registered) ∧ (s.listening.map (·.sessionID)).Nodup ∧
      ∀ sp ∈ s.returned, sp ∈ s.registered := by
  have hkept : Kept s := by
    refine h.invariant (fun s l s' hs hstep => ?_) ?_
    · obtain ⟨hcond, hstep⟩ := Lts.restrict_step hstep
      exact hs.step hcond hstep
    · exact ⟨.refl _, .nil, nofun, .nil, nofun, rfl⟩
  have howned : s.listening.Perm s.registered := by
    simpa [hidle] using hkept.owned
  have hids : (s.registered.map (·.sessionID)).Nodup := by
    simpa [hidle] using hkept.ids
  exact ⟨fun sp => howned.mem_iff, (howned.map _).nodup_iff.mpr hids, hkept.returned⟩

end Steps

/-- `Open` of `id` by one goroutine, as the proxy `number`. -/
def openAlone (id : GoString) (number port : Nat) : List Move :=
  [.lookup id, .listen id (some port), .serve ⟨number, id, port⟩, .register ⟨number, id, port⟩]

/-- Two sessions are opened and one of them is closed. -/
theorem one_proxy_after_close : ∃ (tr : List Move) (s : State),
    (broker.restrict Move.Alone).Run .new tr s ∧ s.calls = [] ∧ s.returned.length = 1 ∧
      ((∀ sp, sp ∈ s.listening ↔ sp ∈ s.registered) ∧ (s.listening.map (·.sessionID)).Nodup ∧
        ∀ sp ∈ s.returned, sp ∈ s.registered) := by
  let tr := openAlone "s1" 0 40001 ++ openAlone "s2" 1 40002 ++
    [.close "s1", .closeServer ⟨0, "s1", 40001⟩ []]
  have hrun : (broker.restrict Move.Alone).Run .new tr
      (((broker.restrict Move.Alone).exec .new tr).get (by decide +kernel)) :=
    Lts.exec_run (Option.some_get _).symm
  exact ⟨tr, _, hrun, isEmpty_iff.mp (by decide +kernel), by decide +kernel,
    one_proxy_per_session hrun (isEmpty_iff.mp (by decide +kernel))⟩

/-- Two attaches open the same session at the same time. Both are given a proxy of their own, and
the broker forgets one of them. -/
theorem two_proxies_for_one_session : ∃ (tr : List Move) (s : State),
    broker.Run .new tr s ∧ s.calls = [] ∧ s.listening.map (·.sessionID) = [str "s1", str "s1"] ∧
      s.registered.length = 1 ∧ s.returned.length = 2 := by
  let tr : List Move := [.lookup "s1", .lookup "s1",
    .listen "s1" (some 40001), .listen "s1" (some 40002),
    .register ⟨0, "s1", 40001⟩, .register ⟨1, "s1", 40002⟩]
  exact ⟨tr, (broker.exec .new tr).get (by decide +kernel), Lts.exec_run (Option.some_get _).symm,
    isEmpty_iff.mp (by decide +kernel), by decide +kernel, by decide +kernel,
    by decide +kernel⟩

end Lemul.Gateway.Proxies
