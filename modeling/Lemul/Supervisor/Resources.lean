import Lemul.Misc.Lts

/-!
# Resource usage

`internal/supervisor/resources.go:150-320`: the sampler reads the counters of the task every two
seconds, and `usage` serves the rates. The sampler computes a rate when it takes a sample and keeps
it for the history. `usage` takes the CPU's rate from there and computes those of the network
again, from the last two samples and without the sampler's test for a counter that has been reset;
for the CPU neither of them makes one.

Rates are rational numbers and times are in nanoseconds. The disk is left out: it is asked afresh
each time and has no rate.
-/

namespace Lemul.Supervisor.Resources

open List

/-- What one tick reads (`resources.go:197-202`), `int64`s but for the time. A read that fails
gives 0. -/
structure Readings where
  time : Int
  cpuUsec : Int
  memUsed : Int
  anon : Int
  rxBytes : Int
  txBytes : Int
  deriving DecidableEq, Repr

/-- `sample` (`resources.go:150-163`). -/
structure Sample extends Readings where
  cpuCores : ℚ
  anonMB : ℚ
  rxBps : ℚ
  txBps : ℚ
  deriving DecidableEq, Repr

/-- `sampler` (`resources.go:166-172`). `prev` is absent where its `ok` is false. -/
structure Sampler where
  ring : List Sample
  prev : Option Sample
  deriving DecidableEq, Repr

/-- `newSampler` (`resources.go:174-176`). -/
def Sampler.new : Sampler := ⟨[], none⟩

def sampleRingSize : Nat := 60

/-- `Seconds` between two times. -/
def seconds (start stop : Int) : ℚ := ((stop - start : Int) : ℚ) / 10 ^ 9

/-- How far a counter is from an earlier reading, in `int64`. -/
def increase (prev cur : Int) : Int := (cur - prev).bmod (2 ^ 64)

theorem increase_nonneg_iff {prev cur : Int} (hprev : 0 ≤ prev ∧ prev < 2 ^ 63)
    (hcur : 0 ≤ cur ∧ cur < 2 ^ 63) : 0 ≤ increase prev cur ↔ prev ≤ cur := by
  unfold increase
  rw [Int.bmod_def]
  omega

/-- The rates of a sample (`resources.go:206-218`). -/
def Readings.sample (r : Readings) (prev : Option Sample) : Sample :=
  let fresh : Sample := ⟨r, 0, ((r.anon / 2 ^ 20 : Int) : ℚ), 0, 0⟩
  match prev with
  | none => fresh
  | some p =>
      let elapsed := seconds p.time r.time
      if 0 < elapsed then
        { fresh with
          cpuCores :=
            if 0 < r.cpuUsec ∧ 0 < p.cpuUsec then
              (increase p.cpuUsec r.cpuUsec : ℚ) / 10 ^ 6 / elapsed
            else 0
          rxBps := if 0 ≤ increase p.rxBytes r.rxBytes then
            (increase p.rxBytes r.rxBytes : ℚ) / elapsed else 0
          txBps := if 0 ≤ increase p.txBytes r.txBytes then
            (increase p.txBytes r.txBytes : ℚ) / elapsed else 0 }
      else fresh

/-- The end of a ring that is kept (`resources.go:221-223`). -/
def trim (ring : List Sample) : List Sample :=
  if sampleRingSize < ring.length then ring.drop (ring.length - sampleRingSize) else ring

/-- `tick` (`resources.go:196-224`). -/
def tick (s : Sampler) (r : Readings) : Sampler :=
  let cur := r.sample s.prev
  ⟨trim (s.ring ++ [cur]), some cur⟩

/-- A sampler after these ticks. -/
def ticks (rs : List Readings) : Sampler := rs.foldl tick Sampler.new

/-- What `usage` reads by itself. -/
structure Host where
  /-- `readCgroupCPUUsec` succeeds. -/
  cpuOk : Bool
  /-- `taskCPULimitCores`. -/
  quota : ℚ
  throttledPercent : ℚ
  numCPU : Nat
  /-- `readCgroupMemUsed`. -/
  memUsed : Option Int
  /-- `taskMemoryLimitBytes`. -/
  memLimit : Int
  anon : Int
  file : Int
  machineMemoryMB : Int
  oomKills : Int
  /-- `readNetDev`: received, sent, errors, drops. -/
  netDev : Option (Int × Int × Int × Int)

/-- `CPUUsage` (`resources.go:73-92`). -/
structure CPUUsage where
  available : Bool
  cores : ℚ
  limit : ℚ
  cpus : ℚ
  throttledPercent : ℚ
  history : List ℚ
  deriving DecidableEq, Repr

/-- `MemoryUsage` (`resources.go:94-119`). -/
structure MemoryUsage where
  available : Bool
  anonMB : Int
  cacheMB : Int
  usedMB : Int
  limitMB : Int
  totalMB : Int
  oomKills : Int
  history : List ℚ
  deriving DecidableEq, Repr

/-- `NetworkUsage` (`resources.go:133-148`). -/
structure NetworkUsage where
  available : Bool
  rxBytesPerSec : ℚ
  txBytesPerSec : ℚ
  rxTotal : Int
  txTotal : Int
  errors : Int
  drops : Int
  rxHistory : List ℚ
  txHistory : List ℚ
  deriving DecidableEq, Repr

/-- `ResourceUsage` (`resources.go:52-60`). -/
structure ResourceUsage where
  cpu : CPUUsage
  memory : MemoryUsage
  network : NetworkUsage
  sampledAt : Option Int
  deriving DecidableEq, Repr

/-- `out.CPU` (`resources.go:240-256`). -/
def cpuUsage (ring : List Sample) (h : Host) : CPUUsage :=
  if h.cpuOk then
    ⟨true, (ring.getLast?.map (·.cpuCores)).getD 0, h.quota,
      if h.quota = 0 then h.numCPU else h.quota, h.throttledPercent, ring.map (·.cpuCores)⟩
  else ⟨false, 0, 0, 0, 0, []⟩

/-- `out.Memory` (`resources.go:266-293`). -/
def memoryUsage (ring : List Sample) (h : Host) : MemoryUsage :=
  match h.memUsed with
  | some used =>
      ⟨true, h.anon / 2 ^ 20, h.file / 2 ^ 20, used / 2 ^ 20, h.memLimit / 2 ^ 20,
        if h.memLimit / 2 ^ 20 = 0 then h.machineMemoryMB else h.memLimit / 2 ^ 20, h.oomKills,
        ring.map (·.anonMB)⟩
  | none => ⟨false, 0, 0, 0, 0, 0, 0, []⟩

/-- The difference of the last two samples per second (`resources.go:307-313`). -/
def lastRate (ring : List Sample) (count : Sample → Int) : ℚ :=
  match ring.getLast?, ring.dropLast.getLast? with
  | some cur, some prev =>
      let elapsed := seconds prev.time cur.time
      if 0 < elapsed then (increase (count prev) (count cur) : ℚ) / elapsed else 0
  | _, _ => 0

/-- `out.Network` (`resources.go:297-315`). -/
def networkUsage (ring : List Sample) (h : Host) : NetworkUsage :=
  match h.netDev with
  | some (rx, tx, errs, drops) =>
      ⟨true, lastRate ring (·.rxBytes), lastRate ring (·.txBytes), rx, tx, errs, drops,
        ring.map (·.rxBps), ring.map (·.txBps)⟩
  | none => ⟨false, 0, 0, 0, 0, 0, 0, [], []⟩

/-- `usage` (`resources.go:227-317`). -/
def usage (s : Sampler) (h : Host) : ResourceUsage :=
  ⟨cpuUsage s.ring h, memoryUsage s.ring h, networkUsage s.ring h,
    s.ring.getLast?.map (·.time)⟩

/-! ## The rates that are served -/

/-- A rate that is not negative and is the last point of its history, which has a point for each
of `n` samples. -/
def Sound (n : Nat) (rate : ℚ) (history : List ℚ) : Prop :=
  0 ≤ rate ∧ rate = history.getLastD 0 ∧ history.length = n

/-- The rates of the groups that are available are sound. -/
def Served (s : Sampler) (u : ResourceUsage) : Prop :=
  (u.cpu.available = true → Sound s.ring.length u.cpu.cores u.cpu.history) ∧
    (u.network.available = true →
      Sound s.ring.length u.network.rxBytesPerSec u.network.rxHistory ∧
        Sound s.ring.length u.network.txBytesPerSec u.network.txHistory)

/-- At the last tick no counter that is served has gone back. A counter of the CPU that could not
be read does not count. -/
def NoReset (rs : List Readings) (h : Host) : Prop :=
  ∀ before prev cur, rs = before ++ [prev, cur] →
    (h.cpuOk = true → 0 < cur.cpuUsec → 0 < prev.cpuUsec →
        0 ≤ increase prev.cpuUsec cur.cpuUsec) ∧
      (h.netDev.isSome → 0 ≤ increase prev.rxBytes cur.rxBytes ∧
        0 ≤ increase prev.txBytes cur.txBytes)

theorem trim_append (init : List Sample) {l : List Sample} (h : l.length ≤ sampleRingSize) :
    ∃ init', trim (init ++ l) = init' ++ l := by
  unfold trim
  split
  · refine ⟨init.drop ((init ++ l).length - sampleRingSize), drop_append_of_le_length ?_⟩
    rw [length_append]
    omega
  · exact ⟨init, rfl⟩

/-- The last sample and, after two ticks, the last two are retained. -/
theorem ticks_concat (before : List Readings) (r : Readings) :
    ∃ init, (ticks (before ++ [r])).ring = init ++ [r.sample (ticks before).prev] := by
  rw [ticks, foldl_append]
  exact trim_append _ (Nat.le_of_ble_eq_true rfl)

theorem ticks_prev (before : List Readings) (r : Readings) :
    (ticks (before ++ [r])).prev = some (r.sample (ticks before).prev) := by
  rw [ticks, foldl_append]
  rfl

theorem ticks_two (before : List Readings) (p r : Readings) :
    ∃ init, (ticks (before ++ [p, r])).ring =
      init ++ [p.sample (ticks before).prev, r.sample (some (p.sample (ticks before).prev))] := by
  obtain ⟨init, hinit⟩ := ticks_concat before p
  have hnext : (ticks ((before ++ [p]) ++ [r])).ring =
      trim ((ticks (before ++ [p])).ring ++ [r.sample (ticks (before ++ [p])).prev]) := by
    rw [ticks, foldl_append]
    rfl
  rw [append_assoc, singleton_append, hinit, ticks_prev, append_assoc, singleton_append] at hnext
  rw [hnext]
  exact trim_append init (Nat.le_of_ble_eq_true rfl)

theorem sample_readings (r : Readings) (prev : Option Sample) :
    (r.sample prev).toReadings = r := by
  unfold Readings.sample
  split
  · rfl
  · dsimp only
    split <;> rfl

theorem seconds_pos {start stop : Int} (h : start < stop) : 0 < seconds start stop := by
  have hpos : (0 : ℚ) < ((stop - start : Int) : ℚ) := by
    exact_mod_cast Int.sub_pos.mpr h
  exact div_pos hpos (by norm_num)

theorem div_nonneg_iff_of_pos {x c : ℚ} (hc : 0 < c) : 0 ≤ x / c ↔ 0 ≤ x := by
  rw [le_div_iff₀ hc, zero_mul]

theorem cores_nonneg_iff {a b d : Int} {elapsed : ℚ} (h : 0 < elapsed) :
    0 ≤ (if 0 < b ∧ 0 < a then (d : ℚ) / 10 ^ 6 / elapsed else 0) ↔ (0 < b → 0 < a → 0 ≤ d) := by
  split
  · rename_i hpos
    rw [div_nonneg_iff_of_pos h, div_nonneg_iff_of_pos (by norm_num), Int.cast_nonneg_iff]
    exact ⟨fun hd _ _ => hd, fun hd => hd hpos.1 hpos.2⟩
  · rename_i hneg
    exact ⟨fun _ hb ha => absurd ⟨hb, ha⟩ hneg, fun _ => le_refl 0⟩

/-- The two ways in which a rate of the network is computed agree where the counter has not gone
back. -/
theorem rate_eq_iff {d : Int} {elapsed : ℚ} (h : 0 < elapsed) :
    (0 ≤ (d : ℚ) / elapsed ∧ (d : ℚ) / elapsed = if 0 ≤ d then (d : ℚ) / elapsed else 0) ↔
      0 ≤ d := by
  rw [div_nonneg_iff_of_pos h, Int.cast_nonneg_iff]
  exact ⟨fun hd => hd.1, fun hd => ⟨hd, (if_pos hd).symm⟩⟩

/-- What there is to show: the histories have the right lengths, and the CPU's ends in the rate. -/
theorem served_iff (s : Sampler) (h : Host) :
    Served s (usage s h) ↔
      (h.cpuOk = true → 0 ≤ (s.ring.getLast?.map (·.cpuCores)).getD 0) ∧
        (h.netDev.isSome →
          (0 ≤ lastRate s.ring (·.rxBytes) ∧
            lastRate s.ring (·.rxBytes) = (s.ring.getLast?.map (·.rxBps)).getD 0) ∧
          (0 ≤ lastRate s.ring (·.txBytes) ∧
            lastRate s.ring (·.txBytes) = (s.ring.getLast?.map (·.txBps)).getD 0)) := by
  simp only [Served, usage]
  apply and_congr
  · unfold cpuUsage
    split <;> rename_i hok <;>
      simp [hok, Sound, getLastD_eq_getLast?, getLast?_map]
  · unfold networkUsage
    split <;> rename_i hok <;>
      simp [hok, Sound, getLastD_eq_getLast?, getLast?_map]

/-- For every sequence of ticks: the rates that are served are sound exactly if no counter has
gone back at the last tick. -/
theorem rates_served_iff {rs : List Readings} (hrs : rs.Pairwise (·.time < ·.time)) (h : Host) :
    Served (ticks rs) (usage (ticks rs) h) ↔ NoReset rs h := by
  rw [served_iff]
  rcases eq_nil_or_concat rs with rfl | ⟨rs, cur, rfl⟩
  · refine ⟨fun _ before prev cur heq => ?_, fun _ => ?_⟩
    · exact absurd heq.symm (append_ne_nil_of_right_ne_nil _ (cons_ne_nil _ _))
    · simp [ticks, Sampler.new, lastRate]
  rcases eq_nil_or_concat rs with rfl | ⟨before, prev, rfl⟩
  · refine ⟨fun _ before prev cur' heq => ?_, fun _ => ?_⟩
    · have hlen := congrArg length heq
      simp at hlen
    · simp [ticks, tick, Sampler.new, trim, sampleRingSize, Readings.sample, lastRate]
  · rw [concat_eq_append, concat_eq_append, append_assoc, singleton_append] at hrs ⊢
    have htime : prev.time < cur.time := by
      have hpair := (pairwise_append.mp hrs).2.1
      exact rel_of_pairwise_cons hpair (mem_singleton.mpr rfl)
    obtain ⟨init, hring⟩ := ticks_two before prev cur
    have hprev := sample_readings prev (ticks before).prev
    generalize prev.sample (ticks before).prev = p at hring hprev
    subst hprev
    have hpos := seconds_pos htime
    have hreset : NoReset (before ++ [p.toReadings, cur]) h ↔
        (h.cpuOk = true → 0 < cur.cpuUsec → 0 < p.cpuUsec → 0 ≤ increase p.cpuUsec cur.cpuUsec) ∧
          (h.netDev.isSome → 0 ≤ increase p.rxBytes cur.rxBytes ∧
            0 ≤ increase p.txBytes cur.txBytes) := by
      constructor
      · exact fun hno => hno before p.toReadings cur rfl
      · intro hno before' prev' cur' heq
        obtain ⟨-, hlast⟩ := append_inj' heq rfl
        cases hlast
        exact hno
    have hcur := sample_readings cur (some p)
    have hlast : (init ++ [p, cur.sample (some p)]).getLast? = some (cur.sample (some p)) := by
      simp
    have hbefore : (init ++ [p, cur.sample (some p)]).dropLast.getLast? = some p := by
      simp
    rw [hreset, hring]
    simp only [lastRate, hlast, hbefore, hcur, Option.map_some, Option.getD_some]
    simp only [Readings.sample, if_pos hpos, cores_nonneg_iff hpos, rate_eq_iff hpos]

/-- A machine on which everything can be read. -/
def plainHost : Host := ⟨true, 2, 0, 8, some 0, 0, 0, 0, 0, 0, some (100, 300, 0, 0)⟩

/-- A task that is brought up anew after the first tick and works on. -/
def restarted : List Readings :=
  [⟨0, 5000000, 0, 0, 700, 300⟩, ⟨2000000000, 0, 0, 0, 100, 0⟩,
    ⟨4000000000, 1000000, 0, 0, 500, 100⟩]

theorem rates_served_iff_restarted :
    Served (ticks restarted) (usage (ticks restarted) plainHost) ∧
      (usage (ticks restarted) plainHost).network.rxBytesPerSec = 200 := by
  refine ⟨(rates_served_iff (by decide) plainHost).mpr fun before prev cur heq => ?_,
    by decide +kernel⟩
  have hlast : [_] ++ [_, _] = before ++ [prev, cur] := heq
  obtain ⟨-, hlast⟩ := append_inj' hlast rfl
  cases hlast
  have hrx : 0 ≤ increase 100 500 := (increase_nonneg_iff (by decide) (by decide)).mpr (by decide)
  have htx : 0 ≤ increase 0 100 := (increase_nonneg_iff (by decide) (by decide)).mpr (by decide)
  exact ⟨fun _ _ hprev => absurd hprev (by decide), fun _ => ⟨hrx, htx⟩⟩

/-- A task whose interface is brought up anew between two ticks. -/
def resets : List Readings :=
  [⟨0, 5000000, 0, 0, 700, 300⟩, ⟨2000000000, 6000000, 0, 0, 100, 300⟩]

/-- The rate of an interface that has been reset: 300 bytes per second less than none, where the
history has 0. So it is with the CPU, with the history as well. -/
theorem rates_negative :
    (usage (ticks resets) plainHost).network.rxBytesPerSec = -300 ∧
      (usage (ticks resets) plainHost).network.rxHistory = [0, 0] ∧
      (usage (ticks [⟨0, 5000000, 0, 0, 0, 0⟩, ⟨2000000000, 1000000, 0, 0, 0, 0⟩])
        plainHost).cpu.cores = -2 := by
  decide +kernel

end Lemul.Supervisor.Resources
