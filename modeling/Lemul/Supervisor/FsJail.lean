import Lemul.Misc.FileTree

/-!
# The root of the file explorer

`internal/supervisor/fsjail.go:47-103`: what an operator asks for is joined under the root,
symbolic links are resolved, and what comes out must be the root or begin with it and a
separator.

For an absolute root that keeps the explorer inside. A relative root stays relative, and one
that leads upwards is written `..`: then the path of its parent, `../..`, begins with it and a
separator too.
-/

namespace Lemul.Supervisor

open SlashPath List

/-- `errOutsideRoot` (`fsjail.go:31`). -/
def errOutsideRoot : GoString := "path is outside the workspace"

/-- `strings.TrimPrefix(rel, "/")`. -/
def trimSlash : GoString → GoString
  | [] => []
  | c :: s => if c = slash then s else c :: s

/-- `withinRoot` (`fsjail.go:84-89`). -/
def withinRoot (root path : GoString) : Bool :=
  path = root || (root ++ [slash]).isPrefixOf path

/-- `resolveInRoot` (`fsjail.go:47-77`). -/
def resolveInRoot (t : FileTree) (root rel : GoString) : Except GoString GoString :=
  if root = [] then .error "no workspace root configured"
  else
    match t.evalSymlinks root with
    | .error e => .error ("workspace root " ++ root ++ ": " ++ e)
    | .ok realRoot =>
        match t.evalSymlinks (join realRoot (clean (slash :: trimSlash rel))) with
        | .error e => .error e
        | .ok real => if withinRoot realRoot real then .ok real else .error errOutsideRoot

/-- `displayPath` (`fsjail.go:93-103`). -/
def displayPath (t : FileTree) (root abs : GoString) : GoString :=
  let realRoot :=
    match t.evalSymlinks root with
    | .error _ => root
    | .ok realRoot => realRoot
  match SlashPath.rel realRoot abs with
  | none => [slash]
  | some way => if way = dot then [slash] else slash :: way

/-- What a path that was let through should be: something that exists, no link on the way to it,
below the root or the root itself, and found again under the path that is shown for it. -/
structure Confined (t : FileTree) (root path : GoString) : Prop where
  inside : ∃ r p : Place, t.evalSymlinks root = .ok r.render ∧ path = p.render ∧ t.Resolved p ∧
    t.Linkless p ∧ p.Below r
  again : resolveInRoot t root (displayPath t root path) = .ok path

section Resolve

variable {t : FileTree} {root rel path : GoString} {r p : Place}

/-- The absolute path with the given names. -/
def under (ns : List Name) : Place := ⟨true, 0, ns, fun _ => rfl⟩

/-- What `resolveInRoot` returns. -/
theorem resolveInRoot_ok (h : resolveInRoot t root rel = .ok path) :
    ∃ r p : Place, t.evalSymlinks root = .ok r.render ∧ path = p.render ∧ t.Resolved p ∧
      withinRoot r.render p.render = true ∧ (rooted root = true → r.rooted = true) := by
  unfold resolveInRoot at h
  split at h
  · cases h
  · split at h
    · cases h
    · rename_i realRoot hroot
      obtain ⟨r, rfl, -, hrooted⟩ := FileTree.evalSymlinks_ok hroot
      split at h
      · cases h
      · rename_i real hreal
        obtain ⟨p, rfl, hresolved, -⟩ := FileTree.evalSymlinks_ok hreal
        split at h <;> cases h
        rename_i hwithin
        exact ⟨r, p, hroot, rfl, hresolved, hwithin, hrooted⟩

theorem ne_nil_of_resolveInRoot (h : resolveInRoot t root rel = .ok path) : root ≠ [] := by
  intro hnil
  rw [resolveInRoot, if_pos hnil] at h
  cases h

/-- What is shown for a path below the root is its names. -/
theorem displayPath_append {more : List Name} (hroot : t.evalSymlinks root = .ok r.render) :
    displayPath t root (r.append more).render = (under more).render := by
  unfold displayPath
  rw [hroot]
  dsimp only
  by_cases hmore : more = []
  · subst hmore
    have hself : r.append [] = r := by
      unfold Place.append
      rw [append_nil]
    rw [hself, rel_self]
    rfl
  · rw [rel_append hmore]
    have hnotDot : [slash].intercalate (more.map (·.val)) ≠ dot := by
      intro hdot
      have hnoSlash : ∀ e ∈ more.map (·.val), slash ∉ e := fun e he => by
        obtain ⟨n, -, rfl⟩ := mem_map.mp he
        exact n.property.noSlash
      have helements := elements_intercalate hnoSlash
        (fun hnil => hmore (map_eq_nil_iff.mp hnil))
      rw [hdot] at helements
      obtain ⟨n, -, hn⟩ := mem_map.mp
        (show dot ∈ more.map (·.val) by rw [← helements]; decide)
      exact n.property.notDot hn
    exact if_neg hnotDot

/-- A path below the root is found again. -/
theorem resolveInRoot_again {more : List Name} (hne : root ≠ [])
    (hroot : t.evalSymlinks root = .ok r.render) (hresolved : t.Resolved (r.append more))
    (hwithin : withinRoot r.render (r.append more).render = true) :
    resolveInRoot t root (displayPath t root (r.append more).render) =
      .ok (r.append more).render := by
  have htrim : slash :: trimSlash (under more).render = (under more).render := rfl
  unfold resolveInRoot
  rw [if_neg hne, hroot, displayPath_append hroot]
  dsimp only
  rw [htrim, clean_render, join_render rfl]
  dsimp only [under]
  rw [FileTree.evalSymlinks_render hresolved]
  dsimp only
  rw [if_pos hwithin]

/-- Enough that the names below the root can be told from the paths. -/
theorem confined_of_below {more : List Name} (hne : root ≠ [])
    (hroot : t.evalSymlinks root = .ok r.render) (hresolved : t.Resolved (r.append more))
    (hwithin : withinRoot r.render (r.append more).render = true) :
    Confined t root (r.append more).render where
  inside := ⟨r, r.append more, hroot, rfl, hresolved, hresolved.linkless, more, rfl⟩
  again := resolveInRoot_again hne hroot hresolved hwithin

theorem withinRoot_cases (h : withinRoot r.render p.render = true) :
    p = r ∨ r.render ++ [slash] <+: p.render := by
  rcases Bool.or_eq_true_iff.mp h with heq | hbelow
  · exact .inl (Place.render_injective (of_decide_eq_true heq))
  · exact .inr <| isPrefixOf_iff_prefix.mp hbelow

theorem confined_of_cases (hne : root ≠ []) (hroot : t.evalSymlinks root = .ok r.render)
    (hresolved : t.Resolved p) (hwithin : withinRoot r.render p.render = true)
    (hbelow : r.render ++ [slash] <+: p.render → p.Below r) : Confined t root p.render := by
  have hmore : p.Below r := by
    rcases withinRoot_cases hwithin with rfl | hprefix
    · exact ⟨[], by unfold Place.append; rw [append_nil]⟩
    · exact hbelow hprefix
  obtain ⟨more, rfl⟩ := hmore
  exact confined_of_below hne hroot hresolved hwithin

/-- In one tree: nothing is let through that is not below the root, if the root resolves to an
absolute path, to the current directory or to a path that ends in a name. -/
theorem confined_of_root (hroot : t.evalSymlinks root = .ok r.render)
    (hr : r.rooted = true ∨ r.names ≠ [] ∨ r = Place.start false)
    (h : resolveInRoot t root rel = .ok path) : Confined t root path := by
  obtain ⟨r', p, hroot', rfl, hresolved, hwithin, -⟩ := resolveInRoot_ok h
  obtain rfl := Place.render_injective (Except.ok.inj (hroot'.symm.trans hroot))
  refine confined_of_cases (ne_nil_of_resolveInRoot h) hroot hresolved hwithin fun hprefix => ?_
  rcases hr with habs | hnames | rfl
  · exact Place.below_of_isPrefix (.inl habs) hprefix
  · exact Place.below_of_isPrefix (.inr hnames) hprefix
  · exact absurd hprefix Place.not_isPrefix_start

/-- A root whose every element is a dot leads to the current directory. -/
theorem evalSymlinks_here (hrooted : rooted root = false)
    (h : ∀ e ∈ elements root, e = [] ∨ e = dot) :
    t.evalSymlinks root = .ok (Place.start false).render := by
  have hroute : route root = replicate (elements root).length .skip := by
    refine eq_replicate_iff.mpr ⟨length_map _, fun x hx => ?_⟩
    obtain ⟨e, he, rfl⟩ := mem_map.mp hx
    rcases h e he with rfl | rfl
    · exact of_nil
    · exact of_dot
  unfold FileTree.evalSymlinks
  rw [hrooted, hroute, ← append_nil (replicate _ _), FileTree.walk_skip]
  cases t.maxLinks <;> rfl

end Resolve

/-! ## A tree in which every way leads up -/

/-- The current directory and those above it, and everywhere else a link to the directory
above. -/
def ladder (cwd : List Name) (maxLinks : Nat) : FileTree where
  node l :=
    if l <+: cwd then some .dir else if l.dropLast <+: cwd then some (.link dotdot) else none
  cwd := cwd
  maxLinks := maxLinks
  root_dir := if_pos nil_prefix
  parent_dir l n h := by
    refine if_pos ?_
    by_cases hdir : l ++ [n] <+: cwd
    · exact (prefix_append l [n]).trans hdir
    · rw [if_neg hdir, dropLast_concat] at h
      by_cases hl : l <+: cwd
      · exact hl
      · exact absurd (if_neg hl) h
  cwd_dir := if_pos (prefix_refl cwd)

section Ladder

variable {cwd : List Name} (maxLinks : Nat)

theorem lstat_ladder (j : Nat) {n : Name} (hn : n ∉ cwd) :
    (ladder cwd maxLinks).lstat ((Place.climb j).push n) = some (.link dotdot) := by
  have hlocation : ((Place.climb j).push n).location cwd = cwd.take (cwd.length - j) ++ [n] := rfl
  show (if _ <+: cwd then _ else _) = _
  have htaken : cwd.take (cwd.length - j) <+: cwd := take_prefix _ _
  rw [show (ladder cwd maxLinks).cwd = cwd from rfl, hlocation, if_neg, dropLast_concat,
    if_pos htaken]
  intro hroot
  exact hn (hroot.subset (mem_append_right _ mem_cons_self))

/-- The names on a way. -/
def namesOn (es : List Element) : List Name :=
  es.filterMap fun
    | .name n => some n
    | _ => none

theorem walk_ladder {es : List Element} {j links : Nat} (hes : ∀ n, .name n ∈ es → n ∉ cwd)
    (hlinks : es.length ≤ links) :
    (ladder cwd maxLinks).walk links (Place.climb j) es =
      .ok (Place.climb (j + es.countP (· ≠ .skip))) := by
  induction es generalizing j links with
  | nil => cases links <;> rfl
  | cons e es ih =>
    have hrest : ∀ n, .name n ∈ es → n ∉ cwd := fun n hn => hes n (mem_cons_of_mem _ hn)
    obtain ⟨links, rfl⟩ := Nat.exists_eq_add_of_le' (Nat.lt_of_lt_of_le (Nat.succ_pos _) hlinks)
    have hlength : es.length ≤ links := Nat.le_of_succ_le_succ hlinks
    cases e with
    | skip =>
      rw [countP_cons_of_neg (by decide)]
      exact ih hrest (Nat.le_succ_of_le hlength)
    | up =>
      rw [countP_cons_of_pos (by decide), ← Nat.add_assoc, Nat.add_right_comm]
      exact ih hrest (Nat.le_succ_of_le hlength)
    | name n =>
      have hlink := lstat_ladder maxLinks j (hes n mem_cons_self)
      rw [countP_cons_of_pos (by simp), ← Nat.add_assoc, Nat.add_right_comm]
      show (ladder cwd maxLinks).walkWith _ _ (.name n :: es) = _
      unfold FileTree.walkWith
      rw [hlink]
      rw [← ih hrest hlength]
      cases links <;> rfl

/-- In a ladder a relative path leads up once for each of its elements. -/
theorem evalSymlinks_ladder {path : GoString} (hrooted : rooted path = false)
    (hnames : ∀ n, .name n ∈ route path → n ∉ cwd) (hlinks : (route path).length ≤ maxLinks) :
    (ladder cwd maxLinks).evalSymlinks path =
      .ok (Place.climb ((route path).countP (· ≠ .skip))).render := by
  have hwalk := walk_ladder maxLinks (j := 0) hnames hlinks
  rw [Nat.zero_add] at hwalk
  have hstart : (ladder cwd maxLinks).walk (ladder cwd maxLinks).maxLinks
      (Place.start (rooted path)) (route path) =
      .ok (Place.climb ((route path).countP (· ≠ .skip))) := by
    rw [hrooted]
    exact hwalk
  unfold FileTree.evalSymlinks
  rw [hstart]

theorem render_climb (k : Nat) :
    (Place.climb (k + 2)).render = (Place.climb (k + 1)).render ++ slash :: dotdot := by
  have hrender : ∀ j, (Place.climb (j + 1)).render =
      [slash].intercalate (replicate (j + 1) dotdot) := by
    intro j
    unfold Place.render Place.parts Place.climb
    dsimp only
    rw [if_neg Bool.false_ne_true, map_nil, append_nil, replicate_succ,
      if_neg (cons_ne_nil _ _)]
  rw [hrender, hrender]
  induction k with
  | zero => rfl
  | succ k ih =>
    have hnext : ∀ j, [slash].intercalate (replicate (j + 2) dotdot) =
        dotdot ++ slash :: [slash].intercalate (replicate (j + 1) dotdot) := fun j => rfl
    calc [slash].intercalate (replicate (k + 3) dotdot)
        = dotdot ++ slash :: [slash].intercalate (replicate (k + 2) dotdot) := hnext (k + 1)
      _ = dotdot ++ slash :: ([slash].intercalate (replicate (k + 1) dotdot) ++
            slash :: dotdot) := by rw [ih]
      _ = [slash].intercalate (replicate (k + 2) dotdot) ++ slash :: dotdot := by
          rw [hnext k, append_assoc, cons_append]

theorem withinRoot_climb (k : Nat) :
    withinRoot (Place.climb (k + 1)).render (Place.climb (k + 2)).render = true := by
  rw [withinRoot, Bool.or_eq_true_iff, isPrefixOf_iff_prefix]
  refine .inr ⟨dotdot, ?_⟩
  rw [render_climb, append_assoc]
  rfl

end Ladder

theorem exists_fresh (ns : List Name) : ∃ n : Name, n ∉ ns := by
  have hplain : ∀ k, Plain (replicate (k + 3) 97) := by
    intro k
    refine ⟨cons_ne_nil _ _, ?_, ?_, fun hin => ?_⟩
    · exact nofun
    · exact nofun
    · cases eq_of_mem_replicate hin
  refine ⟨⟨_, hplain (ns.map (·.val.length)).sum⟩, fun hmem => ?_⟩
  have hle := le_sum_map (fun n : Name => n.val.length) hmem
  rw [length_replicate] at hle
  omega

/-- The names of the examples below. -/
def upName : Name := ⟨"up", by decide⟩
def homeName : Name := ⟨"home", by decide⟩
def devName : Name := ⟨"dev", by decide⟩

/-- A relative root with an element that is not a dot is left in a tree in which every way
leads up. -/
theorem ladder_leaves {root : GoString} (hrooted : rooted root = false) {e : GoString}
    (he : e ∈ elements root) (hne : e ≠ [] ∧ e ≠ dot) :
    ∃ t k, t.evalSymlinks root = .ok (Place.climb (k + 1)).render ∧
      resolveInRoot t root "up" = .ok (Place.climb (k + 2)).render := by
  obtain ⟨fresh, hfresh⟩ := exists_fresh (upName :: namesOn (route root))
  have hnames : ∀ n, .name n ∈ route root → n ∉ replicate (route root).length fresh := by
    intro n hn hmem
    rw [eq_of_mem_replicate hmem] at hn
    exact hfresh (mem_cons_of_mem _ (mem_filterMap.mpr ⟨_, hn, rfl⟩))
  have hup : upName ∉ replicate (route root).length fresh := fun hmem =>
    hfresh (eq_of_mem_replicate hmem ▸ mem_cons_self)
  obtain ⟨k, hk⟩ : ∃ k, (route root).countP (· ≠ .skip) = k + 1 := by
    refine Nat.exists_eq_add_one.mpr (countP_pos_iff.mpr ⟨Element.of e, ?_, ?_⟩)
    · exact mem_map_of_mem he
    · have hplain : e ≠ dotdot → Plain e := fun hup =>
        ⟨hne.1, hne.2, hup, slash_notMem_elements he⟩
      rw [decide_eq_true_eq]
      unfold Element.of
      split
      · exact Element.noConfusion
      · rename_i hup
        rw [dif_pos (hplain hup)]
        exact Element.noConfusion
  -- the links are enough for both paths
  obtain ⟨joined, hjoined⟩ : ∃ s, s = ((Place.climb (k + 1)).append [upName]).render := ⟨_, rfl⟩
  have hroot := evalSymlinks_ladder ((route root).length + (route joined).length) hrooted hnames
    (Nat.le_add_right _ _)
  rw [hk] at hroot
  refine ⟨_, k, hroot, ?_⟩
  obtain ⟨j, hroute⟩ := Place.route_render (p := (Place.climb (k + 1)).append [upName])
  have hsteps : route joined =
      replicate j .skip ++ (replicate (k + 1) .up ++ [.name upName]) := hjoined ▸ hroute
  have hrelative : rooted joined = false := by
    rw [hjoined, Place.rooted_render]
    rfl
  have hnames' : ∀ n, .name n ∈ route joined → n ∉ replicate (route root).length fresh := by
    intro n hn
    rw [hsteps] at hn
    rcases mem_append.mp hn with hn | hn
    · cases eq_of_mem_replicate hn
    · rcases mem_concat.mp hn with hn | hn
      · cases eq_of_mem_replicate hn
      · cases hn
        exact hup
  have hreal := evalSymlinks_ladder ((route root).length + (route joined).length) hrelative hnames'
    (Nat.le_add_left _ _)
  have hcount : (route joined).countP (· ≠ .skip) = k + 2 := by
    rw [hsteps, countP_append, countP_append, countP_replicate,
      countP_replicate, if_neg (by decide), if_pos (by decide), Nat.zero_add]
    rfl
  rw [hcount] at hreal
  have hne : root ≠ [] := by
    rintro rfl
    cases mem_singleton.mp he
    exact hne.1 rfl
  have hclean : clean (slash :: trimSlash "up") = (under [upName]).render := by
    decide +kernel
  unfold resolveInRoot
  rw [if_neg hne, hroot]
  dsimp only
  rw [hclean, join_render rfl]
  dsimp only [under]
  rw [← hjoined, hreal]
  dsimp only
  rw [if_pos (withinRoot_climb k)]

/-! ## Roots that are not left -/

/-- The explorer stays inside its root, whatever is linked to what and whatever is asked for,
exactly if the root is absolute or names the current directory by dots alone. -/
theorem explorer_confined_iff (root : GoString) :
    (∀ (t : FileTree) (rel path : GoString), resolveInRoot t root rel = .ok path →
      Confined t root path) ↔
    (rooted root = true ∨ ∀ e ∈ elements root, e = [] ∨ e = dot) := by
  constructor
  · intro h
    by_cases hrooted : rooted root = true
    · exact .inl hrooted
    · refine .inr fun e he => ?_
      by_cases hdot : e = [] ∨ e = dot
      · exact hdot
      · obtain ⟨t, k, hroot, hresolve⟩ := ladder_leaves (Bool.not_eq_true _ ▸ hrooted) he
          (not_or.mp hdot)
        obtain ⟨r, p, hroot', hpath, -, -, more, hbelow⟩ := (h t _ _ hresolve).inside
        rw [hroot'] at hroot
        have hr := Place.render_injective (Except.ok.inj hroot)
        have hp := Place.render_injective hpath
        rw [← hp, hr] at hbelow
        have hups : k + 2 = k + 1 := congrArg Place.ups hbelow
        omega
  · intro hcond t rel path h
    by_cases habs : rooted root = true
    · obtain ⟨r, -, hroot, -, -, -, hrooted⟩ := resolveInRoot_ok h
      exact confined_of_root hroot (.inl (hrooted habs)) h
    · exact confined_of_root (evalSymlinks_here (Bool.not_eq_true _ ▸ habs)
        (hcond.resolve_left habs)) (.inr (.inr rfl)) h

/-- The directory above the one the supervisor was started in, with a link in it that leads
further up. -/
def homeTree : FileTree :=
  .ofEntries [([homeName], .dir), ([homeName, devName], .dir), ([homeName, upName], .link dotdot)]
    [homeName, devName] 255 (by decide +kernel) (by decide +kernel)

/-- The root of the explorer is `/home`, and it lists `/`. -/
theorem explorer_leaves_root :
    resolveInRoot homeTree ".." "up" = .ok "../.." ∧
      (place "..").location homeTree.cwd = [homeName] ∧
      (place "../..").location homeTree.cwd = [] ∧
      ¬Confined homeTree ".." "../.." := by
  refine ⟨by decide +kernel, by decide +kernel, by decide +kernel, fun h => ?_⟩
  obtain ⟨r, p, hroot, hpath, -, -, more, hbelow⟩ := h.inside
  have hreal : homeTree.evalSymlinks ".." = .ok (Place.climb 1).render := by decide +kernel
  have hwritten : "../.." = (Place.climb 2).render := by decide +kernel
  have hr := Place.render_injective (Except.ok.inj (hroot.symm.trans hreal))
  have hp := Place.render_injective (hpath.symm.trans hwritten)
  rw [hr, hp] at hbelow
  cases congrArg Place.ups hbelow

end Lemul.Supervisor
