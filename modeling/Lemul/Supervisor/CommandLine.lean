import Lemul.Misc.Lists
import Lemul.Misc.TextFields

/-!
# Command lines in a process listing

`cmdline` and `redactSecrets` (`internal/supervisor/procfs.go:139-178, 227-237`). The arguments of
a process are joined by spaces, cut to 512 bytes, and split at the spaces again; of what comes out
the values of flags that carry a secret are blanked. As long as no argument holds a space and
nothing is cut, the words are the arguments. A value with a space in it is only blanked up to
there.
-/

namespace Lemul.Supervisor.CommandLine

open List

/-- `secretFlags` (`procfs.go:146-154`). -/
def secretFlags : List GoString :=
  ["-token", "--token", "-gateway-key", "--gateway-key", "-key", "--key",
    "-secret", "--secret", "-password", "--password", "-api-key",
    "--api-key", "-credential", "--credential"]

def redacted : GoString := "<redacted>"

/-- The loop of `redactSecrets` (`procfs.go:168-176`). With `hide` the field has been overwritten
on account of the one before it. -/
def redactFields : Bool → List GoString → List GoString
  | _, [] => []
  | hide, f :: rest =>
      let f := if hide then redacted else f
      match cut 61 f with
      | some (k, _) =>
          if k ∈ secretFlags then (k ++ "=<redacted>") :: redactFields false rest
          else f :: redactFields (f ∈ secretFlags) rest
      | none => f :: redactFields (f ∈ secretFlags) rest

/-- `redactSecrets` (`procfs.go:163-178`). -/
def redactSecrets (s : GoString) : GoString :=
  if s = [] then s else [32].intercalate (redactFields false (s.splitOn 32))

/-- `cmdline` (`procfs.go:229-237`). -/
def cmdline (b : GoString) : GoString :=
  let s := (b.rdropWhile (· = 0)).map fun c => if c = 0 then 32 else c
  if 512 < s.length then s.take 512 ++ "…" else s

/-- `/proc/<pid>/cmdline` of a process with these arguments. -/
def procCmdline (argv : List GoString) : GoString := argv.flatMap (· ++ [0])

/-- What the listing shows for a process (`procfs.go:133-135`). -/
def render (argv : List GoString) : GoString := redactSecrets (cmdline (procCmdline argv))

/-- The lists differ in the values of secret flags only. -/
inductive SameButSecrets : List GoString → List GoString → Prop where
  | nil : SameButSecrets [] []
  | value {f v v' : GoString} {a b : List GoString} (hf : f ∈ secretFlags)
      (h : SameButSecrets a b) : SameButSecrets (f :: v :: a) (f :: v' :: b)
  | joined {k v v' : GoString} {a b : List GoString} (hk : k ∈ secretFlags)
      (h : SameButSecrets a b) : SameButSecrets ((k ++ 61 :: v) :: a) ((k ++ 61 :: v') :: b)
  | shown {x : GoString} {a b : List GoString} (hx : x ∉ secretFlags ∨ a = [])
      (h : SameButSecrets a b) : SameButSecrets (x :: a) (x :: b)

/-- The arguments with every secret value blanked. -/
def mask (argv : List GoString) : List GoString := redactFields false argv

theorem redactFields_true {f : GoString} {a : List GoString} :
    redactFields true (f :: a) = redacted :: mask a := by
  simp only [redactFields, if_true]
  rfl

theorem mask_shown {x : GoString} {a : List GoString} (hx : x ∉ secretFlags)
    (hcut : ∀ y ∈ cut 61 x, y.1 ∉ secretFlags) : mask (x :: a) = x :: mask a := by
  simp only [mask, redactFields, Bool.false_eq_true, if_false, hx, decide_false]
  split
  · rename_i k y hy
    rw [if_neg (hcut _ hy)]
  · rfl

theorem mask_joined {x k y : GoString} {a : List GoString} (h : cut 61 x = some (k, y))
    (hk : k ∈ secretFlags) : mask (x :: a) = (k ++ "=<redacted>") :: mask a := by
  simp only [mask, redactFields, Bool.false_eq_true, if_false, h, if_pos hk]

theorem mask_flag {f v : GoString} {a : List GoString} (hf : f ∈ secretFlags) :
    mask (f :: v :: a) = f :: redacted :: mask a := by
  have hplain : ∀ f ∈ secretFlags, cut 61 f = none := by decide
  rw [← redactFields_true (f := v)]
  simp only [mask, redactFields, Bool.false_eq_true, if_false, hplain f hf, hf, decide_true]

theorem cut_flag {k v : GoString} (hk : k ∈ secretFlags) : cut 61 (k ++ 61 :: v) = some (k, v) := by
  have hplain : ∀ f ∈ secretFlags, (61 : UInt8) ∉ f := by decide
  exact cut_append (hplain k hk)

theorem SameButSecrets.mask_eq {a b : List GoString} (h : SameButSecrets a b) :
    mask a = mask b := by
  induction h with
  | nil => rfl
  | value hf _ ih => rw [mask_flag hf, mask_flag hf, ih]
  | joined hk _ ih => rw [mask_joined (cut_flag hk) hk, mask_joined (cut_flag hk) hk, ih]
  | @shown x a b hx h ih =>
    rcases hx with hx | rfl
    · simp only [mask, redactFields, Bool.false_eq_true, if_false, hx, decide_false] at ih ⊢
      rw [ih]
    · cases h
      rfl

/-- How a list is blanked, part by part. -/
inductive Masked : List GoString → List GoString → Prop where
  | nil : Masked [] []
  | value {f v : GoString} {a m : List GoString} (hf : f ∈ secretFlags) (h : Masked a m) :
      Masked (f :: v :: a) (f :: redacted :: m)
  | last {f : GoString} (hf : f ∈ secretFlags) : Masked [f] [f]
  | joined {k v : GoString} {a m : List GoString} (hk : k ∈ secretFlags) (h : Masked a m) :
      Masked ((k ++ 61 :: v) :: a) ((k ++ "=<redacted>") :: m)
  | shown {x : GoString} {a m : List GoString} (hx : x ∉ secretFlags)
      (hcut : ∀ y ∈ cut 61 x, y.1 ∉ secretFlags) (h : Masked a m) : Masked (x :: a) (x :: m)

theorem masked_mask : ∀ a : List GoString, Masked a (mask a)
  | [] => .nil
  | x :: a => by
    by_cases hx : x ∈ secretFlags
    · cases a with
      | nil =>
        have hplain : ∀ f ∈ secretFlags, mask [f] = [f] := by decide
        rw [hplain x hx]
        exact .last hx
      | cons v a =>
        rw [mask_flag hx]
        exact .value hx (masked_mask a)
    · cases hcut : cut 61 x with
      | none =>
        have hnone : ∀ y ∈ cut 61 x, y.1 ∉ secretFlags := by rw [hcut]; nofun
        rw [mask_shown hx hnone]
        exact .shown hx hnone (masked_mask a)
      | some y =>
        obtain ⟨k, v⟩ := y
        by_cases hk : k ∈ secretFlags
        · rw [mask_joined hcut hk, eq_of_cut hcut]
          exact .joined hk (masked_mask a)
        · have hother : ∀ y ∈ cut 61 x, y.1 ∉ secretFlags := by
            rw [hcut]
            rintro y ⟨⟩
            exact hk
          rw [mask_shown hx hother]
          exact .shown hx hother (masked_mask a)

/-- A blanked part is neither a flag nor one that would be shown. -/
theorem written_notMem {k : GoString} (hk : k ∈ secretFlags) :
    k ++ "=<redacted>" ∉ secretFlags ∧
      ¬∀ y ∈ cut 61 (k ++ "=<redacted>"), y.1 ∉ secretFlags := by
  have hflags : ∀ k ∈ secretFlags, k ++ "=<redacted>" ∉ secretFlags := by decide
  exact ⟨hflags k hk, fun h => h _ (cut_flag hk) hk⟩

/-- Blanking hides nothing but secret values. -/
theorem Masked.sameButSecrets {a b m : List GoString} (ha : Masked a m) (hb : Masked b m) :
    SameButSecrets a b := by
  induction ha generalizing b with
  | nil =>
    cases hb
    exact .nil
  | value hf _ ih =>
    generalize hm : _ :: redacted :: _ = m at hb
    cases hb with
    | nil => cases hm
    | value _ h =>
      cases hm
      exact .value hf (ih h)
    | last => cases hm
    | joined hk _ =>
      injection hm with hhead
      exact absurd (hhead ▸ hf) (written_notMem hk).1
    | shown hx _ _ =>
      cases hm
      exact absurd hf hx
  | last hf =>
    generalize hm : [_] = m at hb
    cases hb with
    | nil => cases hm
    | value => cases hm
    | last =>
      cases hm
      exact .shown (.inr rfl) .nil
    | joined hk _ =>
      injection hm with hhead
      exact absurd (hhead ▸ hf) (written_notMem hk).1
    | shown hx _ _ =>
      cases hm
      exact absurd hf hx
  | joined hk _ ih =>
    generalize hm : (_ ++ str "=<redacted>") :: _ = m at hb
    cases hb with
    | nil => cases hm
    | value hf _ =>
      injection hm with hhead
      exact absurd (hhead ▸ hf) (written_notMem hk).1
    | last hf =>
      injection hm with hhead
      exact absurd (hhead ▸ hf) (written_notMem hk).1
    | joined _ h =>
      injection hm with hhead hrest
      rw [← append_cancel_right hhead]
      exact .joined hk (ih (hrest ▸ h))
    | shown _ hcut _ =>
      injection hm with hhead
      exact absurd (hhead ▸ hcut) (written_notMem hk).2
  | shown hx hcut _ ih =>
    generalize hm : _ :: _ = m at hb
    cases hb with
    | nil => cases hm
    | value hf _ =>
      injection hm with hhead
      exact absurd (hhead ▸ hf) hx
    | last hf =>
      injection hm with hhead
      exact absurd (hhead ▸ hf) hx
    | joined hk _ =>
      injection hm with hhead
      exact absurd (hhead ▸ hcut) (written_notMem hk).2
    | shown _ _ h =>
      cases hm
      exact .shown (.inl hx) (ih h)

theorem mask_eq_iff {a b : List GoString} : mask a = mask b ↔ SameButSecrets a b :=
  ⟨fun h => (masked_mask a).sameButSecrets (h ▸ masked_mask b), SameButSecrets.mask_eq⟩

/-- Blanking writes no spaces. -/
theorem Masked.free {a m : List GoString} (h : Masked a m) (hfree : ∀ x ∈ a, (32 : UInt8) ∉ x) :
    ∀ x ∈ m, (32 : UInt8) ∉ x := by
  have hwritten : ∀ k ∈ secretFlags, (32 : UInt8) ∉ k ++ "=<redacted>" := by decide
  have hredacted : (32 : UInt8) ∉ redacted := by decide
  induction h with
  | nil => exact hfree
  | value _ _ ih =>
    obtain ⟨hf, hrest⟩ := forall_mem_cons.mp hfree
    exact forall_mem_cons.mpr ⟨hf, forall_mem_cons.mpr
      ⟨hredacted, ih (forall_mem_cons.mp hrest).2⟩⟩
  | last => exact hfree
  | joined hk _ ih =>
    exact forall_mem_cons.mpr ⟨hwritten _ hk, ih (forall_mem_cons.mp hfree).2⟩
  | shown _ _ _ ih =>
    obtain ⟨hx, hrest⟩ := forall_mem_cons.mp hfree
    exact forall_mem_cons.mpr ⟨hx, ih hrest⟩

theorem Masked.ne_nil {a m : List GoString} (h : Masked a m) (hne : a ≠ []) : m ≠ [] := by
  cases h with
  | nil => exact hne
  | _ => exact cons_ne_nil _ _

/-! ## What is rendered -/

/-- What the text of a process falls into at its spaces. -/
def words (argv : List GoString) : List GoString := (cmdline (procCmdline argv)).splitOn 32

theorem words_free (argv : List GoString) : ∀ x ∈ words argv, (32 : UInt8) ∉ x :=
  fun _ hx => notMem_of_mem_splitOn hx

theorem words_ne_nil (argv : List GoString) : words argv ≠ [] := splitOnP_ne_nil _ _

theorem render_eq (argv : List GoString) : render argv = [32].intercalate (mask (words argv)) := by
  unfold render redactSecrets words
  split
  · rename_i hnil
    rw [hnil]
    decide
  · rfl

/-- What is shown can be taken apart again. -/
theorem splitOn_render (argv : List GoString) : (render argv).splitOn 32 = mask (words argv) := by
  have hmask := masked_mask (words argv)
  rw [render_eq]
  exact splitOn_intercalate 32 (hmask.free (words_free argv)) (hmask.ne_nil (words_ne_nil argv))

/-- Arguments that are joined without losing anything and can be told apart afterwards. -/
structure Plain (argv : List GoString) : Prop where
  noZero : ∀ x ∈ argv, (0 : UInt8) ∉ x
  noSpace : ∀ x ∈ argv, (32 : UInt8) ∉ x
  last : argv.getLast? ≠ some []
  fits : ([32].intercalate argv : GoString).length ≤ 512

theorem procCmdline_eq {x : GoString} {argv : List GoString} :
    procCmdline (x :: argv) = [0].intercalate (x :: argv) ++ [0] := by
  induction argv generalizing x with
  | nil => simp [procCmdline, intercalate]
  | cons y argv ih =>
    rw [intercalate_cons_cons, append_assoc, ← ih]
    simp [procCmdline]

/-- The zeros between the arguments are the only ones. -/
theorem map_intercalate {argv : List GoString} (h : ∀ x ∈ argv, (0 : UInt8) ∉ x) :
    ([0].intercalate argv).map (fun c => if c = 0 then 32 else c) =
      ([32].intercalate argv : GoString) := by
  have hsame : ∀ x ∈ argv, x.map (fun c => if c = 0 then 32 else c) = x := by
    intro x hx
    refine (map_congr_left fun c hc => ?_).trans (map_id x)
    exact if_neg fun (hzero : c = 0) => h x hx (hzero ▸ hc)
  induction argv with
  | nil => rfl
  | cons x argv ih =>
    obtain ⟨hx, hrest⟩ := forall_mem_cons.mp hsame
    cases argv with
    | nil => simpa [intercalate] using hx
    | cons y argv =>
      rw [intercalate_cons_cons, intercalate_cons_cons, map_append, map_append, hx,
        ih (forall_mem_cons.mp h).2 hrest]
      rfl

theorem getLast?_intercalate (c : UInt8) {argv : List GoString} {x : GoString}
    (h : argv.getLast? = some x) (hx : x ≠ []) :
    ([c].intercalate argv).getLast? = x.getLast? := by
  induction argv with
  | nil => cases h
  | cons y argv ih =>
    cases argv with
    | nil =>
      cases h
      simp [intercalate]
    | cons z argv =>
      rw [getLast?_cons_cons] at h
      rw [intercalate_cons_cons, getLast?_append, ih h, getLast?_eq_some_getLast hx]
      rfl

theorem cmdline_eq {argv : List GoString} (h : Plain argv) :
    cmdline (procCmdline argv) = [32].intercalate argv := by
  cases argv with
  | nil => rfl
  | cons x argv =>
    have hlast := getLast?_eq_some_getLast (cons_ne_nil x argv)
    have hne : (x :: argv).getLast (cons_ne_nil x argv) ≠ [] := by
      intro hnil
      rw [hnil] at hlast
      exact h.last hlast
    have htrim : (procCmdline (x :: argv)).rdropWhile (· = 0) = [0].intercalate (x :: argv) := by
      rw [procCmdline_eq, rdropWhile_concat_pos _ _ _ (by rfl), rdropWhile_eq_self_iff]
      intro hsome hzero
      have hbyte := getLast?_intercalate 0 hlast hne
      rw [getLast?_eq_some_getLast hsome] at hbyte
      refine h.noZero _ (getLast_mem (cons_ne_nil x argv)) ?_
      rw [← decide_eq_true_eq.mp hzero]
      exact mem_of_getLast? hbyte.symm
    simp only [cmdline, htrim, map_intercalate h.noZero, if_neg (Nat.not_lt.mpr h.fits)]

/-- Of plain arguments the words are the arguments. -/
theorem Plain.words_eq {argv : List GoString} (h : Plain argv) (hne : argv ≠ []) :
    words argv = argv := by
  unfold words
  rw [cmdline_eq h, splitOn_intercalate 32 h.noSpace hne]

theorem SameButSecrets.nil_iff {a b : List GoString} (h : SameButSecrets a b) :
    a = [] ↔ b = [] := by
  cases h <;> simp

/-- A listing shows the same of two processes exactly if the words of their texts, as joined and
cut, differ in the values of secret flags only. For arguments that are all plain this is so
whenever the arguments differ in them only. -/
theorem secrets_hidden_iff (argv other : List GoString) :
    (render argv = render other ↔ SameButSecrets (words argv) (words other)) ∧
    (Plain argv → Plain other → SameButSecrets argv other → render argv = render other) := by
  have hiff : render argv = render other ↔ SameButSecrets (words argv) (words other) := by
    rw [← mask_eq_iff]
    constructor
    · intro hsame
      rw [← splitOn_render, ← splitOn_render, hsame]
    · intro hmask
      rw [render_eq, render_eq, hmask]
  refine ⟨hiff, fun h hother hsame => ?_⟩
  by_cases hnil : argv = []
  · rw [hnil, hsame.nil_iff.mp hnil]
  · rw [hiff, h.words_eq hnil, hother.words_eq (mt hsame.nil_iff.mpr hnil)]
    exact hsame

/-- The supervisor's own command line, with the credential the control plane gave it. -/
def supervisorArgs (token : GoString) : List GoString := ["supervisor", "-token", token]

theorem secrets_hidden_iff_supervisorArgs :
    SameButSecrets (words ["echo hi", "-token", "abc"]) (words ["echo hi", "-token", "xyz"]) ∧
      render (supervisorArgs "abc") = render (supervisorArgs "wxyz") :=
  ⟨(secrets_hidden_iff _ _).1.mp (by decide +kernel),
    (secrets_hidden_iff _ _).2 ⟨by decide, by decide, by decide, by decide⟩
      ⟨by decide, by decide, by decide, by decide⟩
      (.shown (.inl (by decide)) (.value (by decide) .nil))⟩

/-- What follows a space in a secret value is shown. A long value pushes what follows it out of
the listing, and an empty one at the end is taken for no value at all. -/
theorem secrets_shown :
    (SameButSecrets (supervisorArgs "a b") (supervisorArgs "a c") ∧
      render (supervisorArgs "a b") = "supervisor -token <redacted> b" ∧
      render (supervisorArgs "a c") = "supervisor -token <redacted> c") ∧
    (SameButSecrets ["-token", replicate 600 97, "run"] ["-token", [97], "run"] ∧
      render ["-token", replicate 600 97, "run"] = "-token <redacted>" ∧
      render ["-token", [97], "run"] = "-token <redacted> run") ∧
    (SameButSecrets (supervisorArgs []) (supervisorArgs [97]) ∧
      render (supervisorArgs []) = "supervisor -token" ∧
      render (supervisorArgs [97]) = "supervisor -token <redacted>") := by
  refine ⟨⟨?_, by decide +kernel, by decide +kernel⟩, ⟨?_, by decide +kernel, by decide +kernel⟩,
    ⟨?_, by decide +kernel, by decide +kernel⟩⟩
  · exact .shown (.inl (by decide)) (.value (by decide) .nil)
  · exact .value (by decide) (.shown (.inl (by decide)) .nil)
  · exact .shown (.inl (by decide)) (.value (by decide) .nil)

end Lemul.Supervisor.CommandLine
