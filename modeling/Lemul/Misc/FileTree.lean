import Lemul.Misc.Place

/-!
# Files, directories and symbolic links

A tree of files with symbolic links anywhere in it, and `filepath.EvalSymlinks` on it: the path
is walked element by element, and a link is replaced by what it says, from where it stands or
from the root. The result is relative if the path was, unless a link on the way was absolute.
How many links are followed before it gives up is up to the system.

What the walk arrives at exists and has no link in it, and leads to itself when it is walked
again.
-/

namespace Lemul.SlashPath

open List Option

inductive Node where
  | dir
  | file
  | link (target : GoString)
  deriving DecidableEq, Repr

/-- What `Lstat` finds, by the names from the root, and the current directory. -/
structure FileTree where
  node : List Name → Option Node
  cwd : List Name
  maxLinks : Nat
  root_dir : node [] = some .dir
  parent_dir : ∀ l n, node (l ++ [n]) ≠ none → node l = some .dir
  cwd_dir : node cwd = some .dir

/-- What a list of entries says about a path; the root need not be listed. -/
def nodeIn (entries : List (List Name × Node)) (l : List Name) : Option Node :=
  if l = [] then some .dir else (entries.find? (·.1 = l)).map (·.2)

/-- A finite tree. -/
def FileTree.ofEntries (entries : List (List Name × Node)) (cwd : List Name) (maxLinks : Nat)
    (hparents : ∀ x ∈ entries, nodeIn entries x.1.dropLast = some .dir)
    (hcwd : nodeIn entries cwd = some .dir) : FileTree where
  node := nodeIn entries
  cwd := cwd
  maxLinks := maxLinks
  root_dir := rfl
  parent_dir l n h := by
    unfold nodeIn at h
    rw [if_neg (append_ne_nil_of_right_ne_nil _ (cons_ne_nil _ _))] at h
    cases hfound : entries.find? (·.1 = l ++ [n]) with
    | none =>
      rw [hfound] at h
      exact absurd rfl h
    | some x =>
      have hkey := find?_some hfound
      have hparent := hparents x (mem_of_find?_eq_some hfound)
      rw [decide_eq_true_eq] at hkey
      rwa [hkey, dropLast_concat] at hparent
  cwd_dir := hcwd

/-- The names from the root to a place, seen from `cwd`. -/
def Place.location (p : Place) (cwd : List Name) : List Name :=
  (if p.rooted then [] else cwd.take (cwd.length - p.ups)) ++ p.names

namespace FileTree

variable (t : FileTree)

/-- What stands at a place. -/
def lstat (p : Place) : Option Node := t.node (p.location t.cwd)

/-- The walk of `EvalSymlinks`, with what to do at a link. -/
def walkWith (follow : Place → List Element → Except GoString Place) :
    Place → List Element → Except GoString Place
  | p, [] => .ok p
  | p, .skip :: es => walkWith follow p es
  | p, .up :: es => walkWith follow p.up es
  | p, .name n :: es =>
      match t.lstat (p.push n) with
      | none =>
          .error ("lstat " ++ (p.push n).render ++ ": no such file or directory")
      | some .dir => walkWith follow (p.push n) es
      | some .file => if es = [] then .ok (p.push n) else .error "not a directory"
      | some (.link target) =>
          follow (if rooted target then Place.start true else p) (route target ++ es)

/-- The walk, following so many links. -/
def walk : Nat → Place → List Element → Except GoString Place
  | 0 => t.walkWith fun _ _ => .error "EvalSymlinks: too many links"
  | links + 1 => t.walkWith (walk links)

/-- `filepath.EvalSymlinks`. -/
def evalSymlinks (path : GoString) : Except GoString GoString :=
  match t.walk t.maxLinks (Place.start (rooted path)) (route path) with
  | .error e => .error e
  | .ok p => .ok p.render

/-- Something stands at the place, and it is no link. -/
def Resolved (p : Place) : Prop := t.lstat p = some .dir ∨ t.lstat p = some .file

/-- None of the names from the root to the place is a link. -/
def Linkless (p : Place) : Prop :=
  ∀ l, l <+: p.location t.cwd → ∀ target, t.node l ≠ some (.link target)

variable {t} {p q : Place}

/-! ## The tree -/

theorem dir_of_append {l l' : List Name} (hl' : l' ≠ []) (h : t.node (l ++ l') ≠ none) :
    t.node l = some .dir := by
  induction l' using reverseRecOn with
  | nil => exact absurd rfl hl'
  | append_singleton l' n ih =>
    rw [← append_assoc] at h
    have hparent := t.parent_dir _ _ h
    by_cases hnil : l' = []
    · rwa [hnil, append_nil] at hparent
    · exact ih hnil (by rw [hparent]; exact some_ne_none _)

theorem dir_take_cwd (k : Nat) : t.node (t.cwd.take k) = some .dir := by
  by_cases hdrop : t.cwd.drop k = []
  · have hall := take_append_drop k t.cwd
    rw [hdrop, append_nil] at hall
    rw [hall]
    exact t.cwd_dir
  · refine dir_of_append hdrop ?_
    rw [take_append_drop, t.cwd_dir]
    exact some_ne_none _

theorem location_push (n : Name) : (p.push n).location t.cwd = p.location t.cwd ++ [n] :=
  (append_assoc _ _ _).symm

theorem location_append (ns : List Name) :
    (p.append ns).location t.cwd = p.location t.cwd ++ ns :=
  (append_assoc _ _ _).symm

theorem lstat_start (r : Bool) : t.lstat (Place.start r) = some .dir := by
  cases r with
  | true => exact t.root_dir
  | false =>
    show t.node (t.cwd.take (t.cwd.length - 0) ++ []) = some .dir
    rw [append_nil]
    exact dir_take_cwd _

/-- The parent of a directory is one. -/
theorem lstat_up (h : t.lstat p = some .dir) : t.lstat p.up = some .dir := by
  rcases eq_nil_or_concat p.names with hnil | ⟨ns, n, hnames⟩
  · unfold Place.up
    rw [if_neg (not_not.mpr hnil)]
    split
    · exact h
    · rename_i hrooted
      show t.node ((if p.rooted then [] else _) ++ p.names) = some .dir
      rw [if_neg hrooted, hnil, append_nil]
      exact dir_take_cwd _
  · rw [concat_eq_append] at hnames
    have hpush : p = p.up.push n := by
      unfold Place.up
      rw [if_pos (by
        rw [hnames]
        exact append_ne_nil_of_right_ne_nil _ (cons_ne_nil _ _))]
      obtain ⟨r, u, names, htop⟩ := p
      obtain rfl : names = ns ++ [n] := hnames
      unfold Place.push
      rw [dropLast_concat]
    rw [hpush, FileTree.lstat, location_push] at h
    exact t.parent_dir _ n (by rw [h]; exact some_ne_none _)

theorem Resolved.linkless (h : t.Resolved p) : t.Linkless p := by
  intro l hl target hlink
  obtain ⟨rest, hrest⟩ := hl
  have hnode : t.node (l ++ rest) = some .dir ∨ t.node (l ++ rest) = some .file := hrest ▸ h
  by_cases hnil : rest = []
  · rw [hnil, append_nil, hlink] at hnode
    rcases hnode with hnode | hnode <;> cases hnode
  · have hdir := dir_of_append hnil (by
      intro hnone
      rw [hnone] at hnode
      rcases hnode with hnode | hnode <;> cases hnode)
    cases hdir.symm.trans hlink

/-! ## Where the walk arrives -/

variable {es : List Element} {links : Nat}

/-- What holds wherever a walk arrives: `P` of a directory is kept by going up, by going down
into another directory, and by starting again at the root. -/
theorem walkWith_arrives {follow : Place → List Element → Except GoString Place} {r : Bool}
    (hfollow : ∀ p es q, t.lstat p = some .dir → (r = true → p.rooted = true) →
      follow p es = .ok q → t.Resolved q ∧ (r = true → q.rooted = true))
    (hdir : t.lstat p = some .dir) (hrooted : r = true → p.rooted = true)
    (h : t.walkWith follow p es = .ok q) : t.Resolved q ∧ (r = true → q.rooted = true) := by
  induction es generalizing p with
  | nil =>
    cases h
    exact ⟨.inl hdir, hrooted⟩
  | cons e es ih =>
    cases e with
    | skip => exact ih hdir hrooted h
    | up =>
      refine ih (lstat_up hdir) (fun hr => ?_) h
      rw [show p.up.rooted = p.rooted from Place.rooted_step .up]
      exact hrooted hr
    | name n =>
      unfold walkWith at h
      split at h
      · cases h
      · rename_i hnode
        exact ih hnode hrooted h
      · rename_i hnode
        split at h <;> cases h
        exact ⟨.inr hnode, hrooted⟩
      · refine hfollow _ _ _ ?_ ?_ h
        · split
          · exact lstat_start true
          · exact hdir
        · intro hr
          split
          · rfl
          · exact hrooted hr

theorem walk_arrives {r : Bool} (hdir : t.lstat p = some .dir)
    (hrooted : r = true → p.rooted = true) (h : t.walk links p es = .ok q) :
    t.Resolved q ∧ (r = true → q.rooted = true) := by
  induction links generalizing p q es with
  | zero => exact walkWith_arrives (fun _ _ _ _ _ hnone => by cases hnone) hdir hrooted h
  | succ links ih =>
    exact walkWith_arrives (fun _ _ _ hdir hrooted h => ih hdir hrooted h) hdir hrooted h

/-- What `EvalSymlinks` returns exists and has no links, and is absolute if the path was. -/
theorem evalSymlinks_ok {path real : GoString} (h : t.evalSymlinks path = .ok real) :
    ∃ q : Place, real = q.render ∧ t.Resolved q ∧ (rooted path = true → q.rooted = true) := by
  unfold evalSymlinks at h
  split at h <;> cases h
  rename_i q hwalk
  have harrives := walk_arrives (r := rooted path) (lstat_start _) id hwalk
  exact ⟨q, rfl, harrives⟩

/-! ## What has no links leads to itself -/

theorem walk_cons_dir {n : Name} (h : t.lstat (p.push n) = some .dir) :
    t.walk links p (.name n :: es) = t.walk links (p.push n) es := by
  cases links <;> simp only [walk, walkWith, h]

theorem walk_last {n : Name} (h : t.Resolved (p.push n)) :
    t.walk links p [.name n] = .ok (p.push n) := by
  rcases h with h | h
  · rw [walk_cons_dir h]
    cases links <;> rfl
  · cases links <;> simp only [walk, walkWith, h, if_true]

theorem walk_skip {k : Nat} :
    t.walk links p (replicate k .skip ++ es) = t.walk links p es := by
  induction k with
  | zero => rfl
  | succ k ih =>
    rw [← ih, replicate_succ, cons_append]
    cases links <;> rfl

theorem walk_up {k : Nat} {j : Nat} :
    t.walk links (Place.climb j) (replicate k .up ++ es) =
      t.walk links (Place.climb (j + k)) es := by
  induction k generalizing j with
  | zero => rfl
  | succ k ih =>
    rw [replicate_succ, cons_append, Nat.add_succ, ← Nat.succ_add, ← ih]
    cases links <;> rfl

theorem walk_names {ns : List Name} (h : t.Resolved (p.append ns)) :
    t.walk links p (ns.map .name) = .ok (p.append ns) := by
  induction ns generalizing p with
  | nil =>
    have hself : p.append [] = p := by
      unfold Place.append
      rw [append_nil]
    rw [hself]
    cases links <;> rfl
  | cons n ns ih =>
    have hpush : p.append (n :: ns) = (p.push n).append ns := by
      unfold Place.append Place.push
      rw [append_assoc]
      rfl
    rw [hpush] at h ⊢
    rw [map_cons]
    by_cases hlast : ns = []
    · subst hlast
      have hself : (p.push n).append [] = p.push n := by
        unfold Place.append
        rw [append_nil]
      rw [hself] at h ⊢
      exact walk_last h
    · have hdir : t.lstat (p.push n) = some .dir := by
        refine dir_of_append hlast ?_
        rw [← location_append]
        rcases h with h | h <;>
        · rw [show t.node (((p.push n).append ns).location t.cwd) = _ from h]
          exact some_ne_none _
      rw [walk_cons_dir hdir]
      exact ih h

theorem walk_route_render (h : t.Resolved p) :
    t.walk links (Place.start p.rooted) (route p.render) = .ok p := by
  obtain ⟨k, hroute⟩ := Place.route_render (p := p)
  rw [hroute, walk_skip]
  obtain ⟨r, u, ns, htop⟩ := p
  cases r with
  | true =>
    obtain rfl := htop rfl
    exact walk_names (p := Place.start true) h
  | false =>
    show t.walk links (Place.climb 0) (replicate u .up ++ ns.map .name) = _
    rw [walk_up, Nat.zero_add]
    exact walk_names (p := Place.climb u) h

theorem evalSymlinks_render (h : t.Resolved p) : t.evalSymlinks p.render = .ok p.render := by
  unfold evalSymlinks
  rw [Place.rooted_render, walk_route_render h]

end FileTree

end Lemul.SlashPath
