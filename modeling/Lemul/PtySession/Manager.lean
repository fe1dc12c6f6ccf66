import Lemul.Misc.GoString
import Lemul.Misc.Lists
import Lemul.Misc.Lts

/-!
# The manager of sessions

`internal/ptysession/manager.go:50-125` with `newSession` and the end of a session
(`session.go:105-214`): any calls of `Create`, `Get` and `Stop`, the children that end when they
like, and the goroutines that read the PTYs, interleaved. A section under the manager's mutex is
one step, and so is each call of the operating system. `newSession` forks outside the mutex.

What a session reads and hands to its clients is in `Lemul.PtySession.Session`; of the reader
only its end matters here. `Read` on a terminal fails when no process has its other side open,
and the child is not the only one that can. A signal changes nothing by itself, since a child may
end at any time.
The finalizer that the runtime gives an `os.File` is left out: when it runs is not said anywhere.
-/

namespace Lemul.PtySession.Manager

open Function

/-- `Spec` (`session.go:42-72`). -/
structure Spec where
  id : GoString
  cmd : List GoString
  env : List GoString
  rows : Nat
  cols : Nat
  dir : GoString
  /-- The uid of `Credential`. -/
  credential : Option Nat
  deriving DecidableEq, Repr

/-- Why a call of `Create` fails. -/
inductive CreateError where
  /-- `ErrExists`. -/
  | errExists
  /-- The error of `newSession`. -/
  | fork (err : GoString)
  deriving DecidableEq, Repr

/-- A child, with the code that `finish` makes of how it ended (`session.go:187-194`). -/
inductive Child where
  | running
  /-- It has ended, and nobody has waited for it. -/
  | exited (code : Int)
  | reaped (code : Int)
  deriving DecidableEq, Repr

/-- The goroutine of a session, by what it does next. -/
inductive Reader where
  /-- It has not been started. -/
  | unborn
  | reading
  /-- `cmd.Wait`. -/
  | waiting
  /-- The locked section of `finish`, in which the PTY is closed. -/
  | closing
  /-- The locked section of `reap`. -/
  | reaping
  /-- `onExit`. -/
  | calling
  | done
  deriving DecidableEq, Repr

/-- A session whose child was forked. -/
structure Forked where
  spec : Spec
  /-- The call of `Create` that forked it. -/
  call : Nat
  ptmxOpen : Bool
  child : Child
  reader : Reader
  deriving DecidableEq, Repr

/-- `newSession` (`session.go:105-157`) in call `c`, with the error of `pty.StartWithSize`. -/
def newSession (c : Nat) (spec : Spec) (err : Option GoString) : Except GoString Forked :=
  if spec.cmd = [] then .error "empty command"
  else
    match err with
    | some err => .error ("pty.StartWithSize: " ++ err)
    | none => .ok {
        spec := { spec with
          rows := if spec.rows = 0 then 24 else spec.rows
          cols := if spec.cols = 0 then 80 else spec.cols }
        call := c
        ptmxOpen := true
        child := .running
        reader := .unborn }

/-- How far a call of `Create` has got, by what it does next. -/
inductive CreatePc where
  /-- The first locked section (`manager.go:51-56`). -/
  | check
  | fork
  /-- The second locked section (`manager.go:63-72`). -/
  | register (n : Nat)
  /-- `s.Stop(true)`. -/
  | kill (n : Nat)
  /-- `go s.readLoop(m.reap)`. -/
  | start (n : Nat)
  | returned (r : Except CreateError Nat)

structure Call where
  spec : Spec
  pc : CreatePc

/-- A call of the exit callback. -/
structure ExitCall where
  /-- Whose goroutine made it. -/
  session : Nat
  id : GoString
  code : Int
  deriving DecidableEq, Repr

/-- A manager, the calls made on it and the sessions they forked. -/
structure State where
  /-- Every call of `Create` so far. Its number is its position here. -/
  calls : List Call
  /-- Every session forked so far. Its number is its position here. -/
  forked : List Forked
  /-- The map `sessions`. -/
  sessions : GoString → Option Nat
  exitCalls : List ExitCall
  /-- Whether a process other than its child has the terminal of a session open. -/
  held : Nat → Bool

/-- `NewManager`. -/
def newManager : State := ⟨[], [], fun _ => none, [], fun _ => false⟩

/-- Call `c`, which is for `spec`, goes on to `pc`. -/
def State.moves (s : State) (c : Nat) (spec : Spec) (pc : CreatePc) : State :=
  { s with calls := s.calls.set c ⟨spec, pc⟩ }

/-- Session `n` becomes `f`. -/
def State.becomes (s : State) (n : Nat) (f : Forked) : State :=
  { s with forked := s.forked.set n f }

section Updates

variable {s : State} {c i n : Nat} {call : Call} {f f' : Forked} {spec : Spec} {pc : CreatePc}

theorem calls_moves (hcall : s.calls[c]? = some call) :
    (s.moves c spec pc).calls[i]? = if i = c then some ⟨spec, pc⟩ else s.calls[i]? :=
  getElem?_set_of hcall _

theorem forked_becomes (hforked : s.forked[n]? = some f) :
    (s.becomes n f').forked[i]? = if i = n then some f' else s.forked[i]? :=
  getElem?_set_of hforked _

end Updates

inductive Label where
  /-- `Create` is called. -/
  | create (spec : Spec)
  | check (c : Nat)
  | fork (c : Nat) (err : Option GoString)
  | register (c : Nat)
  | kill (c : Nat)
  | start (c : Nat)
  /-- A child ends. -/
  | exits (n : Nat) (code : Int)
  /-- Another process has the terminal open from now on, or none has. -/
  | hold (n : Nat) (held : Bool)
  /-- The kernel lets `Read` fail, and the read loop is left. -/
  | readFails (n : Nat)
  | wait (n : Nat)
  | close (n : Nat)
  | reap (n : Nat)
  | onExit (n : Nat)
  | get (id : GoString) (r : Option Nat)
  /-- `Manager.Stop`, which answers `ErrNotFound` when `found` is false. -/
  | stop (id : GoString) (force found : Bool)
  deriving DecidableEq, Repr

/-- One step of a manager. `onExit`: an exit callback was given. -/
def step (onExit : Bool) (s : State) : Label → Option State
  | .create spec => some { s with calls := s.calls ++ [⟨spec, .check⟩] }
  | .check c =>
      match s.calls[c]? with
      | some ⟨spec, .check⟩ =>
          match s.sessions spec.id with
          | some _ => some (s.moves c spec (.returned (.error .errExists)))
          | none => some (s.moves c spec .fork)
      | _ => none
  | .fork c err =>
      match s.calls[c]? with
      | some ⟨spec, .fork⟩ =>
          match newSession c spec err with
          | .error err => some (s.moves c spec (.returned (.error (.fork err))))
          | .ok f =>
              some { s.moves c spec (.register s.forked.length) with forked := s.forked ++ [f] }
      | _ => none
  | .register c =>
      match s.calls[c]? with
      | some ⟨spec, .register n⟩ =>
          match s.sessions spec.id with
          | some _ => some (s.moves c spec (.kill n))
          | none =>
              some { s.moves c spec (.start n) with
                sessions := update s.sessions spec.id (some n) }
      | _ => none
  | .kill c =>
      match s.calls[c]? with
      | some ⟨spec, .kill _⟩ => some (s.moves c spec (.returned (.error .errExists)))
      | _ => none
  | .start c =>
      match s.calls[c]? with
      | some ⟨spec, .start n⟩ =>
          match s.forked[n]? with
          | some f =>
              some ((s.moves c spec (.returned (.ok n))).becomes n { f with reader := .reading })
          | none => none
      | _ => none
  | .exits n code =>
      match s.forked[n]? with
      | some f =>
          if f.child = .running then some (s.becomes n { f with child := .exited code }) else none
      | none => none
  | .hold n held => some { s with held := update s.held n held }
  | .readFails n =>
      match s.forked[n]? with
      | some f =>
          if f.reader = .reading ∧ s.held n = false then
            some (s.becomes n { f with reader := .waiting })
          else none
      | none => none
  | .wait n =>
      match s.forked[n]? with
      | some f =>
          match f.reader, f.child with
          | .waiting, .exited code =>
              some (s.becomes n { f with reader := .closing, child := .reaped code })
          | _, _ => none
      | none => none
  | .close n =>
      match s.forked[n]? with
      | some f =>
          if f.reader = .closing then
            some (s.becomes n { f with reader := .reaping, ptmxOpen := false })
          else none
      | none => none
  | .reap n =>
      match s.forked[n]? with
      | some f =>
          if f.reader = .reaping then
            some { s.becomes n { f with reader := .calling } with
              sessions := update s.sessions f.spec.id none }
          else none
      | none => none
  | .onExit n =>
      match s.forked[n]? with
      | some f =>
          match f.reader, f.child with
          | .calling, .reaped code =>
              some { s.becomes n { f with reader := .done } with
                exitCalls := s.exitCalls ++ if onExit then [⟨n, f.spec.id, code⟩] else [] }
          | _, _ => none
      | none => none
  | .get id r => if r = s.sessions id then some s else none
  | .stop id _ found => if found = (s.sessions id).isSome then some s else none

/-- The manager of a task. -/
def manager (onExit : Bool) : Lts State Label := ⟨step onExit⟩

/-! ## What the steps do -/

/-- The steps as rules, with what each of them asks for. -/
inductive Rule (onExit : Bool) (s : State) : Label → State → Prop where
  | create {spec : Spec} :
      Rule onExit s (.create spec) { s with calls := s.calls ++ [⟨spec, .check⟩] }
  | found {c n : Nat} {spec : Spec} (hcall : s.calls[c]? = some ⟨spec, .check⟩)
      (hfound : s.sessions spec.id = some n) :
      Rule onExit s (.check c) (s.moves c spec (.returned (.error .errExists)))
  | absent {c : Nat} {spec : Spec} (hcall : s.calls[c]? = some ⟨spec, .check⟩)
      (habsent : s.sessions spec.id = none) : Rule onExit s (.check c) (s.moves c spec .fork)
  | forkFails {c : Nat} {spec : Spec} {e : Option GoString} {err : GoString}
      (hcall : s.calls[c]? = some ⟨spec, .fork⟩) (hnew : newSession c spec e = .error err) :
      Rule onExit s (.fork c e) (s.moves c spec (.returned (.error (.fork err))))
  | forks {c : Nat} {spec : Spec} {e : Option GoString} {f : Forked}
      (hcall : s.calls[c]? = some ⟨spec, .fork⟩) (hnew : newSession c spec e = .ok f) :
      Rule onExit s (.fork c e)
        { s.moves c spec (.register s.forked.length) with forked := s.forked ++ [f] }
  | loses {c n m : Nat} {spec : Spec} (hcall : s.calls[c]? = some ⟨spec, .register n⟩)
      (hfound : s.sessions spec.id = some m) :
      Rule onExit s (.register c) (s.moves c spec (.kill n))
  | registers {c n : Nat} {spec : Spec} (hcall : s.calls[c]? = some ⟨spec, .register n⟩)
      (habsent : s.sessions spec.id = none) :
      Rule onExit s (.register c) { s.moves c spec (.start n) with
        sessions := update s.sessions spec.id (some n) }
  | kill {c n : Nat} {spec : Spec} (hcall : s.calls[c]? = some ⟨spec, .kill n⟩) :
      Rule onExit s (.kill c) (s.moves c spec (.returned (.error .errExists)))
  | start {c n : Nat} {spec : Spec} {f : Forked} (hcall : s.calls[c]? = some ⟨spec, .start n⟩)
      (hforked : s.forked[n]? = some f) :
      Rule onExit s (.start c)
        ((s.moves c spec (.returned (.ok n))).becomes n { f with reader := .reading })
  | exits {n : Nat} {code : Int} {f : Forked} (hforked : s.forked[n]? = some f)
      (hrunning : f.child = .running) :
      Rule onExit s (.exits n code) (s.becomes n { f with child := .exited code })
  | hold {n : Nat} {held : Bool} :
      Rule onExit s (.hold n held) { s with held := update s.held n held }
  | readFails {n : Nat} {f : Forked} (hforked : s.forked[n]? = some f)
      (hreader : f.reader = .reading) :
      Rule onExit s (.readFails n) (s.becomes n { f with reader := .waiting })
  | wait {n : Nat} {code : Int} {f : Forked} (hforked : s.forked[n]? = some f)
      (hreader : f.reader = .waiting) (hexited : f.child = .exited code) :
      Rule onExit s (.wait n) (s.becomes n { f with reader := .closing, child := .reaped code })
  | close {n : Nat} {f : Forked} (hforked : s.forked[n]? = some f)
      (hreader : f.reader = .closing) :
      Rule onExit s (.close n) (s.becomes n { f with reader := .reaping, ptmxOpen := false })
  | reap {n : Nat} {f : Forked} (hforked : s.forked[n]? = some f)
      (hreader : f.reader = .reaping) :
      Rule onExit s (.reap n) { s.becomes n { f with reader := .calling } with
        sessions := update s.sessions f.spec.id none }
  | onExit {n : Nat} {code : Int} {f : Forked} (hforked : s.forked[n]? = some f)
      (hreader : f.reader = .calling) (hreaped : f.child = .reaped code) :
      Rule onExit s (.onExit n) { s.becomes n { f with reader := .done } with
        exitCalls := s.exitCalls ++ if onExit then [⟨n, f.spec.id, code⟩] else [] }
  | get {id : GoString} : Rule onExit s (.get id (s.sessions id)) s
  | stop {id : GoString} {force : Bool} :
      Rule onExit s (.stop id force (s.sessions id).isSome) s

/-- What a step did. -/
theorem step_rule {onExit : Bool} {s s' : State} {l : Label}
    (h : (manager onExit).step s l = some s') : Rule onExit s l s' := by
  cases l <;> simp only [manager, step] at h <;> (repeat' split at h) <;>
    simp only [Option.some.injEq, reduceCtorEq] at h
  all_goals grind [Rule]

theorem newSession_eq_ok {c : Nat} {spec : Spec} {e : Option GoString} {f : Forked}
    (h : newSession c spec e = .ok f) :
    f.spec.id = spec.id ∧ f.call = c ∧ f.ptmxOpen = true ∧ f.child = .running ∧
      f.reader = .unborn := by
  unfold newSession at h
  split at h
  · cases h
  · split at h <;> cases h
    exact ⟨rfl, rfl, rfl, rfl, rfl⟩

/-! ## One call -/

/-- The steps of call `c`. -/
def Label.OfCall (c : Nat) : Label → Prop
  | .check i | .fork i _ | .register i | .kill i | .start i => i = c
  | _ => False

/-- What a step can do to call `c` for `spec`, which is at some point before it. -/
inductive Proceeds (s : State) (c : Nat) (spec : Spec) : CreatePc → Label → CreatePc → Prop where
  | same {pc : CreatePc} {l : Label} (hother : ¬l.OfCall c) : Proceeds s c spec pc l pc
  | found {n : Nat} (hfound : s.sessions spec.id = some n) :
      Proceeds s c spec .check (.check c) (.returned (.error .errExists))
  | absent (habsent : s.sessions spec.id = none) : Proceeds s c spec .check (.check c) .fork
  | forkFails {e : Option GoString} {err : GoString} (hnew : newSession c spec e = .error err) :
      Proceeds s c spec .fork (.fork c e) (.returned (.error (.fork err)))
  | forks {e : Option GoString} {f : Forked} (hnew : newSession c spec e = .ok f) :
      Proceeds s c spec .fork (.fork c e) (.register s.forked.length)
  | loses {n m : Nat} (hfound : s.sessions spec.id = some m) :
      Proceeds s c spec (.register n) (.register c) (.kill n)
  | registers {n : Nat} (habsent : s.sessions spec.id = none) :
      Proceeds s c spec (.register n) (.register c) (.start n)
  | kill {n : Nat} : Proceeds s c spec (.kill n) (.kill c) (.returned (.error .errExists))
  | start {n : Nat} : Proceeds s c spec (.start n) (.start c) (.returned (.ok n))

section Calls

variable {onExit : Bool} {s s' : State} {l : Label} {c : Nat} {spec : Spec} {pc pc' : CreatePc}

/-- A call stays, and a step takes it on. -/
theorem step_proceeds (hcall : s.calls[c]? = some ⟨spec, pc⟩)
    (hstep : (manager onExit).step s l = some s') :
    ∃ pc', s'.calls[c]? = some ⟨spec, pc'⟩ ∧ Proceeds s c spec pc l pc' := by
  have htouch : ∀ {i : Nat} {spec₁ : Spec} {pc₁ pc' : CreatePc} {t : State},
      s.calls[i]? = some ⟨spec₁, pc₁⟩ → t.calls = s.calls.set i ⟨spec₁, pc'⟩ →
      Proceeds s i spec₁ pc₁ l pc' → (i ≠ c → ¬l.OfCall c) →
      ∃ pc', t.calls[c]? = some ⟨spec, pc'⟩ ∧ Proceeds s c spec pc l pc' := by
    intro i spec₁ pc₁ pc' t hi ht htouched hother
    rw [ht, getElem?_set_of hi]
    by_cases hc : c = i
    · subst hc
      cases hcall.symm.trans hi
      exact ⟨pc', if_pos rfl, htouched⟩
    · exact ⟨pc, (if_neg hc).trans hcall, .same (hother (Ne.symm hc))⟩
  cases step_rule hstep with
  | create => exact ⟨pc, getElem?_concat_old hcall _, .same nofun⟩
  | found hi hfound => exact htouch hi rfl (.found hfound) id
  | absent hi habsent => exact htouch hi rfl (.absent habsent) id
  | forkFails hi hnew => exact htouch hi rfl (.forkFails hnew) id
  | forks hi hnew => exact htouch hi rfl (.forks hnew) id
  | loses hi hfound => exact htouch hi rfl (.loses hfound) id
  | registers hi habsent => exact htouch hi rfl (.registers habsent) id
  | kill hi => exact htouch hi rfl .kill id
  | start hi => exact htouch hi rfl .start id
  | _ => exact ⟨pc, hcall, .same nofun⟩

/-- A call is one that was there and is taken on, or has just been made. -/
theorem call_or_created (hstep : (manager onExit).step s l = some s')
    (hcall : s'.calls[c]? = some ⟨spec, pc'⟩) :
    (∃ pc, s.calls[c]? = some ⟨spec, pc⟩ ∧ Proceeds s c spec pc l pc') ∨ pc' = .check := by
  cases hold : s.calls[c]? with
  | some call =>
    obtain ⟨spec₁, pc⟩ := call
    obtain ⟨pc₁, hpc₁, hproceeds⟩ := step_proceeds hold hstep
    cases hcall.symm.trans hpc₁
    exact .inl ⟨pc, rfl, hproceeds⟩
  | none =>
    -- only `create` makes the list longer
    have hlength : s.calls.length ≤ c := List.getElem?_eq_none_iff.mp hold
    have hlt : c < s'.calls.length := (List.getElem?_eq_some_iff.mp hcall).1
    have hsame : s'.calls.length ≠ s.calls.length := by omega
    cases step_rule hstep with
    | create =>
      rcases of_getElem?_concat hcall with hthere | ⟨-, hnew⟩
      · cases hold.symm.trans hthere
      · cases hnew
        exact .inr rfl
    | _ => exact absurd (by simp [State.moves, State.becomes]) hsame

end Calls

end Lemul.PtySession.Manager
