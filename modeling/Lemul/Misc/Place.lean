import Lemul.Misc.SlashPath

/-!
# Cleaned paths

What `clean` leaves of a path, as data: whether it starts at the root, how often it goes up
first, and the names it then goes down. `place` reads a path, `Place.render` writes it, and a
path that was written is read back. Paths are joined by walking on from where the first one
leads, and one path below another is told by its names, not by its bytes.
-/

namespace Lemul.SlashPath

open List

instance (e : GoString) : Decidable (Plain e) :=
  if h : e ≠ [] ∧ e ≠ dot ∧ e ≠ dotdot ∧ slash ∉ e then
    .isTrue ⟨h.1, h.2.1, h.2.2.1, h.2.2.2⟩
  else .isFalse fun hp => h ⟨hp.nonempty, hp.notDot, hp.notDotdot, hp.noSlash⟩

/-- The name of a file in its directory. -/
abbrev Name := { e : GoString // Plain e }

/-- What an element of a path means. -/
inductive Element where
  | skip
  | up
  | name (n : Name)
  deriving DecidableEq

/-- An element that stands between two slashes is empty, a dot, two dots, or a name. -/
def Element.of (e : GoString) : Element :=
  if e = dotdot then .up else if h : Plain e then .name ⟨e, h⟩ else .skip

def route (s : GoString) : List Element := (elements s).map Element.of

/-- A cleaned path. -/
structure Place where
  rooted : Bool
  ups : Nat
  names : List Name
  top : rooted = true → ups = 0
  deriving DecidableEq

namespace Place

def start (rooted : Bool) : Place := ⟨rooted, 0, [], fun _ => rfl⟩

def push (p : Place) (n : Name) : Place := { p with names := p.names ++ [n] }

def append (p : Place) (ns : List Name) : Place := { p with names := p.names ++ ns }

/-- The place of `..`: the root is its own parent. -/
def up (p : Place) : Place :=
  if p.names ≠ [] then { p with names := p.names.dropLast }
  else if h : p.rooted = true then p
  else { p with ups := p.ups + 1, top := fun hr => absurd hr h }

def step (p : Place) : Element → Place
  | .skip => p
  | .up => p.up
  | .name n => p.push n

/-- The elements of the path. -/
def parts (p : Place) : List GoString := replicate p.ups dotdot ++ p.names.map (·.val)

/-- The path as `clean` writes it. -/
def render (p : Place) : GoString :=
  if p.rooted then slash :: [slash].intercalate p.parts
  else if p.parts = [] then dot else [slash].intercalate p.parts

end Place

/-- Where a path leads, by lexical processing alone. -/
def place (s : GoString) : Place := (route s).foldl Place.step (Place.start (rooted s))

/-! ## Elements -/

@[simp] theorem of_nil : Element.of [] = .skip := by decide

@[simp] theorem of_dot : Element.of dot = .skip := by decide

@[simp] theorem of_dotdot : Element.of dotdot = .up := rfl

@[simp] theorem of_name (n : Name) : Element.of n.val = .name n := by
  unfold Element.of
  rw [if_neg n.property.notDotdot, dif_pos n.property]

theorem elements_append_slash (a b : GoString) :
    elements (a ++ slash :: b) = elements a ++ elements b := by
  unfold elements splitOn
  exact splitOnP_append_cons a b (beq_self_eq_true slash)

theorem elements_intercalate {es : List GoString} (hes : ∀ e ∈ es, slash ∉ e) (hne : es ≠ []) :
    elements ([slash].intercalate es) = es :=
  splitOn_intercalate slash hes hne

theorem route_append_slash (a b : GoString) : route (a ++ slash :: b) = route a ++ route b := by
  unfold route
  rw [elements_append_slash, map_append]

namespace Place

variable {p q : Place}

theorem noSlash_parts : ∀ e ∈ p.parts, slash ∉ e := by
  intro e he
  rcases mem_append.mp he with he | he
  · rw [eq_of_mem_replicate he]
    decide
  · obtain ⟨n, -, rfl⟩ := mem_map.mp he
    exact n.property.noSlash

theorem nonempty_parts : ∀ e ∈ p.parts, e ≠ [] := by
  intro e he
  rcases mem_append.mp he with he | he
  · rw [eq_of_mem_replicate he]
    decide
  · obtain ⟨n, -, rfl⟩ := mem_map.mp he
    exact n.property.nonempty

theorem parts_of_rooted (h : p.rooted = true) : p.parts = p.names.map (·.val) := by
  rw [parts, p.top h]
  rfl

/-- The way to the place, from where it starts. -/
def steps (p : Place) : List Element := replicate p.ups .up ++ p.names.map .name

theorem map_of_parts : p.parts.map Element.of = p.steps := by
  unfold parts steps
  rw [map_append, map_replicate, of_dotdot, map_map]
  congr 1
  exact map_congr_left fun n _ => of_name n

/-- A path that was written leads there, apart from elements that are skipped. -/
theorem route_render : ∃ k, route p.render = replicate k .skip ++ p.steps := by
  unfold route render
  by_cases hparts : p.parts = []
  · have hsteps : p.steps = [] := by rw [← map_of_parts, hparts]; rfl
    rw [hparts, hsteps]
    cases p.rooted with
    | true => exact ⟨2, rfl⟩
    | false => exact ⟨1, rfl⟩
  · have helements := elements_intercalate noSlash_parts hparts
    cases p.rooted with
    | true =>
      refine ⟨1, ?_⟩
      rw [if_pos rfl, elements_cons_slash, map_cons, helements, map_of_parts, of_nil]
      rfl
    | false =>
      refine ⟨0, ?_⟩
      rw [if_neg Bool.false_ne_true, if_neg hparts, helements, map_of_parts]
      rfl

theorem foldl_skip (k : Nat) : (replicate k .skip).foldl step p = p := by
  induction k with
  | zero => rfl
  | succ k ih => exact ih

theorem foldl_names (ns : List Name) : (ns.map .name).foldl step p = p.append ns := by
  induction ns generalizing p with
  | nil =>
    unfold append
    rw [map_nil, foldl_nil, append_nil]
  | cons n ns ih =>
    rw [map_cons, foldl_cons, ih]
    unfold append step push
    rw [append_assoc]
    rfl

/-- The place `k` directories up. -/
def climb (k : Nat) : Place := ⟨false, k, [], fun h => absurd h Bool.false_ne_true⟩

theorem foldl_up (j k : Nat) : (replicate k .up).foldl step (climb j) = climb (j + k) := by
  induction k generalizing j with
  | zero => rfl
  | succ k ih =>
    rw [replicate_succ, foldl_cons, Nat.add_succ, ← Nat.succ_add]
    exact ih (j + 1)

theorem foldl_steps : p.steps.foldl step (start p.rooted) = p := by
  unfold steps
  rw [foldl_append, foldl_names]
  obtain ⟨r, u, ns, htop⟩ := p
  cases r with
  | true =>
    obtain rfl := htop rfl
    rfl
  | false =>
    have hclimb := foldl_up 0 u
    rw [Nat.zero_add] at hclimb
    show append ((replicate u .up).foldl step (climb 0)) ns = _
    rw [hclimb]
    rfl

theorem head_intercalate {e : GoString} (es : List GoString) (he : e ≠ []) :
    ([slash].intercalate (e :: es)).head? = e.head? := by
  cases e with
  | nil => exact absurd rfl he
  | cons c e =>
    cases es with
    | nil | cons e' es => rfl

theorem rooted_render : SlashPath.rooted p.render = p.rooted := by
  unfold render
  cases hrooted : p.rooted with
  | true => rfl
  | false =>
    rw [if_neg Bool.false_ne_true]
    split
    · rfl
    · rename_i hparts
      obtain ⟨e, es, hcons⟩ := exists_cons_of_ne_nil hparts
      have he : e ∈ p.parts := by rw [hcons]; exact mem_cons_self
      rw [hcons, SlashPath.rooted, head_intercalate _ (nonempty_parts e he)]
      refine decide_eq_false fun hhead => noSlash_parts e he ?_
      exact mem_of_mem_head? hhead

/-- What was written is read back. -/
theorem place_render : place p.render = p := by
  obtain ⟨k, hroute⟩ := route_render (p := p)
  rw [place, hroute, rooted_render, foldl_append, foldl_skip, foldl_steps]

theorem render_injective : Function.Injective render := fun p q h => by
  rw [← place_render (p := p), h, place_render]

theorem render_ne_nil : p.render ≠ [] := by
  unfold render
  split
  · exact cons_ne_nil _ _
  · split
    · decide
    · rename_i hparts
      obtain ⟨e, es, hcons⟩ := exists_cons_of_ne_nil hparts
      have he := nonempty_parts e (by rw [hcons]; exact mem_cons_self)
      intro hnil
      have hhead := head_intercalate es he
      rw [← hcons, hnil] at hhead
      exact he (head?_eq_none_iff.mp hhead.symm)

/-! ## `clean` writes the place -/

theorem rooted_step (x : Element) : (p.step x).rooted = p.rooted := by
  cases x with
  | skip | name n => rfl
  | up =>
    show p.up.rooted = p.rooted
    unfold up
    split
    · rfl
    · split <;> rfl

theorem parts_push (n : Name) : (p.push n).parts = p.parts ++ [n.val] := by
  unfold parts push
  rw [map_append, append_assoc]
  rfl

theorem parts_up_of_names {ns : List Name} {n : Name} (h : p.names = ns ++ [n]) :
    p.parts = p.up.parts ++ [n.val] := by
  unfold up
  rw [if_pos (by rw [h]; exact append_ne_nil_of_right_ne_nil _ (cons_ne_nil _ _))]
  unfold parts
  dsimp only
  rw [h, dropLast_concat, map_append, append_assoc]
  rfl

theorem parts_climb (k : Nat) : (climb k).parts.reverse = replicate k dotdot := by
  show (replicate k dotdot ++ []).reverse = _
  rw [append_nil, reverse_replicate]

theorem cleanStep_parts {e : GoString} (he : slash ∉ e) :
    cleanStep p.rooted p.parts.reverse e = (p.step (Element.of e)).parts.reverse := by
  by_cases hskip : e = [] ∨ e = dot
  · have hof : Element.of e = .skip := by
      rcases hskip with rfl | rfl
      · exact of_nil
      · exact of_dot
    unfold cleanStep
    rw [if_pos hskip, hof]
    rfl
  · by_cases hup : e = dotdot
    · subst hup
      unfold cleanStep
      rw [if_neg hskip, if_pos rfl, of_dotdot]
      rcases eq_nil_or_concat p.names with hnil | ⟨ns, n, hnames⟩
      · -- only `..` so far
        obtain ⟨r, u, ns, htop⟩ := p
        obtain rfl : ns = [] := hnil
        cases r with
        | true =>
          obtain rfl := htop rfl
          rfl
        | false =>
          have hbefore : (Place.mk false u [] htop).parts.reverse = _ := parts_climb u
          have hafter : ((Place.mk false u [] htop).step .up).parts.reverse = _ :=
            parts_climb (u + 1)
          rw [hbefore, hafter]
          cases u <;> rfl
      · rw [concat_eq_append] at hnames
        have hparts := parts_up_of_names hnames
        rw [hparts, reverse_append]
        exact if_neg n.property.notDotdot
    · have hplain : Plain e := ⟨fun h => hskip (.inl h), fun h => hskip (.inr h), hup, he⟩
      have hof : Element.of e = .name ⟨e, hplain⟩ := of_name ⟨e, hplain⟩
      unfold cleanStep
      rw [if_neg hskip, if_neg hup, hof, step, parts_push, reverse_append]
      rfl

theorem foldl_cleanStep {es : List GoString} (hes : ∀ e ∈ es, slash ∉ e) :
    es.foldl (cleanStep p.rooted) p.parts.reverse =
      ((es.map Element.of).foldl step p).parts.reverse := by
  induction es generalizing p with
  | nil => rfl
  | cons e es ih =>
    rw [foldl_cons, map_cons, foldl_cons, cleanStep_parts (hes e mem_cons_self),
      ← rooted_step (Element.of e)]
    exact ih fun e' he' => hes e' (mem_cons_of_mem _ he')

end Place

theorem rooted_foldl {es : List Element} {p : Place} :
    (es.foldl Place.step p).rooted = p.rooted := by
  induction es generalizing p with
  | nil => rfl
  | cons e es ih => rw [foldl_cons, ih, Place.rooted_step]

theorem clean_eq_render (s : GoString) : clean s = (place s).render := by
  have hkept : keptElements s = (place s).parts := by
    have hnoSlash : ∀ e ∈ elements s, slash ∉ e := fun _ he => slash_notMem_elements he
    have hfold := Place.foldl_cleanStep (p := Place.start (rooted s)) hnoSlash
    unfold keptElements place route
    rw [← reverse_reverse (Place.parts _), ← hfold]
    rfl
  have hrooted : (place s).rooted = rooted s := rooted_foldl
  unfold clean Place.render
  rw [hkept, hrooted]
  cases rooted s with
  | true => rfl
  | false =>
    dsimp only
    rw [if_neg Bool.false_ne_true, if_neg Bool.false_ne_true]
    by_cases hparts : (place s).parts = []
    · rw [if_pos hparts, hparts]
      rfl
    · rw [if_neg hparts, if_neg]
      obtain ⟨e, es, hcons⟩ := exists_cons_of_ne_nil hparts
      have he := Place.nonempty_parts e (by rw [hcons]; exact mem_cons_self)
      intro hnil
      have hhead := Place.head_intercalate es he
      rw [← hcons, hnil] at hhead
      exact he (head?_eq_none_iff.mp hhead.symm)

theorem clean_render (p : Place) : clean p.render = p.render := by
  rw [clean_eq_render, Place.place_render]

/-! ## Joining -/

/-- `path.Join` of two elements that are not empty. -/
def join (a b : GoString) : GoString := clean (a ++ slash :: b)

theorem place_join {p q : Place} (hq : q.rooted = true) :
    place (p.render ++ slash :: q.render) = p.append q.names := by
  have hrooted : rooted (p.render ++ slash :: q.render) = p.rooted := by
    rw [← Place.rooted_render (p := p)]
    unfold rooted
    rw [head?_append_of_ne_nil _ Place.render_ne_nil]
  obtain ⟨k, hp⟩ := Place.route_render (p := p)
  obtain ⟨l, hl⟩ := Place.route_render (p := q)
  have hsteps : q.steps = q.names.map .name := by
    unfold Place.steps
    rw [q.top hq]
    rfl
  rw [place, hrooted, route_append_slash, hp, hl, hsteps, foldl_append, foldl_append,
    foldl_append, Place.foldl_skip, Place.foldl_skip, Place.foldl_steps, Place.foldl_names]

theorem join_render {p q : Place} (hq : q.rooted = true) :
    join p.render q.render = (p.append q.names).render := by
  rw [join, clean_eq_render, place_join hq]

/-! ## Below -/

/-- Where a place can be reached from another by going down. -/
def Place.Below (p q : Place) : Prop := ∃ more, p = q.append more

namespace Place

variable {p q : Place}

theorem render_of_parts_nil (h : p.parts = []) :
    p.render = if p.rooted then [slash] else dot := by
  unfold render
  rw [h, if_pos rfl]
  rfl

theorem elements_render (h : p.parts ≠ []) :
    elements p.render = (if p.rooted then [[]] else []) ++ p.parts := by
  have hparts := elements_intercalate noSlash_parts h
  unfold render
  split
  · rw [elements_cons_slash, hparts]
    rfl
  · exact hparts

/-- A path that begins with another one and a slash has its elements and more. -/
theorem elements_of_isPrefix (h : q.render ++ [slash] <+: p.render) :
    ∃ more, more ≠ [] ∧ elements p.render = elements q.render ++ more := by
  obtain ⟨rest, hrest⟩ := h
  refine ⟨elements rest, splitOnP_ne_nil _ _, ?_⟩
  rw [← hrest, append_assoc, singleton_append, elements_append_slash]

theorem parts_ne_of_mem {e : GoString} (he : e ∈ p.parts) : e ≠ [] ∧ e ≠ dot := by
  refine ⟨nonempty_parts e he, ?_⟩
  rcases mem_append.mp he with he | he
  · rw [eq_of_mem_replicate he]
    decide
  · obtain ⟨n, -, rfl⟩ := mem_map.mp he
    exact n.property.notDot

theorem rooted_of_isPrefix (h : q.render ++ [slash] <+: p.render) : p.rooted = q.rooted := by
  obtain ⟨after, hafter⟩ := h
  rw [← rooted_render, ← hafter, append_assoc, SlashPath.rooted,
    head?_append_of_ne_nil _ render_ne_nil]
  exact rooted_render

theorem count_parts : p.parts.count dotdot = p.ups := by
  have hnames : (p.names.map (·.val)).count dotdot = 0 := by
    rw [count_eq_zero]
    intro hmem
    obtain ⟨n, -, hn⟩ := mem_map.mp hmem
    exact n.property.notDotdot hn
  rw [parts, count_append, count_replicate_self, hnames, Nat.add_zero]

/-- Behind a name there are only names. -/
theorem below_of_parts {rest : List GoString} (hrooted : p.rooted = q.rooted)
    (hnames : q.names ≠ []) (h : p.parts = q.parts ++ rest) : p.Below q := by
  obtain ⟨init, n, hq⟩ := (eq_nil_or_concat q.names).resolve_left hnames
  have hsplit : replicate p.ups dotdot ++ p.names.map (·.val) =
      (replicate q.ups dotdot ++ init.map (·.val)) ++ n.val :: rest := by
    have hparts : p.parts = _ := h
    rw [parts, parts, hq] at hparts
    simpa using hparts
  have hrest : rest <:+ p.names.map (·.val) := by
    rcases append_eq_append_iff.mp hsplit with ⟨mid, -, hmid⟩ | ⟨mid, hups, hmid⟩
    · exact ⟨mid ++ [n.val], by rw [hmid]; simp⟩
    · cases mid with
      | nil => exact ⟨[n.val], hmid⟩
      | cons e mid =>
        have hdots : e = dotdot := eq_of_mem_replicate (hups ▸ mem_append_right _ mem_cons_self)
        exact absurd ((cons.inj hmid).1.trans hdots) n.property.notDotdot
  have hcount : rest.count dotdot = 0 := by
    have hsub := hrest.sublist.count_le dotdot
    have hparts := count_parts (p := p)
    rw [parts, count_append, count_replicate_self] at hparts
    omega
  have hups : p.ups = q.ups := by
    rw [← count_parts, ← count_parts (p := q), h, count_append, hcount, Nat.add_zero]
  rw [parts, parts, hups, append_assoc, append_cancel_left_eq] at h
  obtain ⟨ns, more, hsplit, hns, -⟩ := map_eq_append_iff.mp h
  refine ⟨more, ?_⟩
  obtain rfl : ns = q.names := map_injective_iff.mpr Subtype.val_injective hns
  obtain ⟨r, u, names, htop⟩ := p
  cases hrooted
  cases hups
  cases hsplit
  rfl

/-- A path that begins with another one and a slash lies below it, if that one starts at the
root or ends in a name. -/
theorem below_of_isPrefix (hq : q.rooted = true ∨ q.names ≠ [])
    (h : q.render ++ [slash] <+: p.render) : p.Below q := by
  have hrooted := rooted_of_isPrefix h
  obtain ⟨rest, hrest, helements⟩ := elements_of_isPrefix h
  by_cases hnames : q.names = []
  · -- the root is a slash, and nothing begins with two
    have hq := hq.resolve_right (not_not_intro hnames)
    have hslash : elements q.render = [[], []] := by
      rw [render_of_parts_nil (by rw [parts_of_rooted hq, hnames]; rfl), if_pos hq]
      rfl
    rw [hslash] at helements
    by_cases hparts : p.parts = []
    · rw [render_of_parts_nil hparts, if_pos (hrooted.trans hq)] at helements
      have hnil : [[], []] ++ [] = [[], []] ++ rest := helements
      exact absurd (append_cancel_left hnil).symm hrest
    · rw [elements_render hparts, if_pos (hrooted.trans hq)] at helements
      have hparts : p.parts = [] :: rest := (cons.inj helements).2
      exact absurd rfl (nonempty_parts (p := p) [] (hparts ▸ mem_cons_self))
  · have hparts : q.parts ≠ [] := fun hnil =>
      hnames (map_eq_nil_iff.mp (append_eq_nil_iff.mp hnil).2)
    rw [elements_render hparts, ← hrooted, append_assoc] at helements
    by_cases hnone : p.parts = []
    · have hlen := congrArg length helements
      have hpos := length_pos_of_ne_nil hparts
      have hpos' := length_pos_of_ne_nil hrest
      have hone : ∀ b : Bool, (elements (if b then [slash] else dot)).length =
          (if b then [[]] else [] : List GoString).length + 1 := by decide
      rw [render_of_parts_nil hnone, hone, length_append, length_append] at hlen
      omega
    · rw [elements_render hnone, append_cancel_left_eq] at helements
      exact below_of_parts hrooted hnames helements

/-- No path begins with a dot and a slash. -/
theorem not_isPrefix_start : ¬(start false).render ++ [slash] <+: p.render := by
  intro h
  obtain ⟨rest, hrest, helements⟩ := elements_of_isPrefix h
  have hdot : elements p.render = dot :: rest := helements
  by_cases hparts : p.parts = []
  · rw [render_of_parts_nil hparts] at hdot
    split at hdot
    · cases hdot
    · injection hdot with _ hnil
      exact hrest hnil.symm
  · rw [elements_render hparts] at hdot
    split at hdot
    · cases (cons.inj hdot).1
    · exact (parts_ne_of_mem (p := p) (e := dot)
        (by rw [← nil_append p.parts, hdot]; exact mem_cons_self)).2 rfl

end Place

/-! ## Relative paths -/

/-- What is left of two lists after their common beginning. -/
def dropCommon : List GoString → List GoString → List GoString × List GoString
  | x :: xs, y :: ys => if x = y then dropCommon xs ys else (x :: xs, y :: ys)
  | xs, ys => (xs, ys)

/-- `filepath.Rel`: how to go from one path to the other, if that does not depend on where one
is. -/
def rel (basePath targPath : GoString) : Option GoString :=
  let base := place basePath
  let targ := place targPath
  if targ = base then some dot
  else if base.rooted ≠ targ.rooted then none
  else
    let left := dropCommon base.parts targ.parts
    if left.1.head? = some dotdot then none
    else some ([slash].intercalate (left.1.map (fun _ => dotdot) ++ left.2))

theorem dropCommon_append (xs ys : List GoString) : dropCommon xs (xs ++ ys) = ([], ys) := by
  induction xs with
  | nil =>
    cases ys <;> rfl
  | cons x xs ih =>
    rw [cons_append, dropCommon, if_pos rfl, ih]

theorem rel_self (p : Place) : rel p.render p.render = some dot := by
  unfold rel
  rw [if_pos rfl]

/-- The way down. -/
theorem rel_append {p : Place} {more : List Name} (hmore : more ≠ []) :
    rel p.render (p.append more).render = some ([slash].intercalate (more.map (·.val))) := by
  have hne : p.append more ≠ p := by
    intro heq
    have hnames : p.names ++ more = p.names := congrArg Place.names heq
    exact hmore (append_right_eq_self.mp hnames)
  have hparts : (p.append more).parts = p.parts ++ more.map (·.val) := by
    unfold Place.append Place.parts
    rw [map_append, append_assoc]
  unfold rel
  rw [Place.place_render, Place.place_render]
  dsimp only
  rw [if_neg hne, if_neg (fun h => h rfl), hparts, dropCommon_append]
  rfl

end Lemul.SlashPath
