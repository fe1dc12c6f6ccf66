import Lemul.Misc.SlashPath

/-!
# Paths of URLs

`net/url`: a URL holds its path decoded, and beside it the encoding it came with when that is
not the default one. `EscapedPath` uses the latter only as long as it decodes to the path.
`joinURLPath` is from `httputil.ReverseProxy`.
-/

namespace Lemul.UrlPath

open List

open SlashPath (slash rooted)

def percent : UInt8 := 37

def isAlphanumeric (c : UInt8) : Bool :=
  (97 ≤ c && c ≤ 122) || (65 ≤ c && c ≤ 90) || (48 ≤ c && c ≤ 57)

/-- `shouldEscape` for a path: what is neither unreserved nor reserved, and `?`. -/
def shouldEscape (c : UInt8) : Bool :=
  !(isAlphanumeric c || (str "-_.~$&+,/:;=@").contains c)

/-- A byte that `validEncoded` lets stand. -/
def validByte (c : UInt8) : Bool :=
  (str "!$&'()*+,;=:@[]%").contains c || !shouldEscape c

def validEncoded (s : GoString) : Bool := s.all validByte

def upperhex (n : UInt8) : UInt8 := if n < 10 then 48 + n else 55 + n

def ishex (c : UInt8) : Bool :=
  (48 ≤ c && c ≤ 57) || (97 ≤ c && c ≤ 102) || (65 ≤ c && c ≤ 70)

def unhex (c : UInt8) : UInt8 :=
  if 48 ≤ c && c ≤ 57 then c - 48 else if 97 ≤ c && c ≤ 102 then c - 87 else c - 55

def escapeByte (c : UInt8) : GoString :=
  if shouldEscape c then [percent, upperhex (c / 16), upperhex (c % 16)] else [c]

/-- `escape` for a path. -/
def escape (s : GoString) : GoString := s.flatMap escapeByte

/-- `unescape` for a path. -/
def unescape : GoString → Option GoString
  | [] => some []
  | c :: rest =>
      if c = percent then
        match rest with
        | a :: b :: rest' =>
            if ishex a && ishex b then (unescape rest').map ((unhex a * 16 + unhex b) :: ·)
            else none
        | _ => none
      else (unescape rest).map (c :: ·)

/-- The part of a `URL` that says where on its host it leads. -/
structure Url where
  path : GoString
  rawPath : GoString
  rawQuery : GoString
  deriving DecidableEq, Repr

/-- `setPath`. -/
def setPath (p : GoString) : Option (GoString × GoString) :=
  (unescape p).map fun path => (path, if escape path = p then [] else p)

/-- `EscapedPath`. -/
def Url.escapedPath (u : Url) : GoString :=
  if u.rawPath ≠ [] ∧ validEncoded u.rawPath = true ∧ unescape u.rawPath = some u.path then
    u.rawPath
  else if u.path = "*" then "*"
  else escape u.path

def endsInSlash (s : GoString) : Bool := s.getLast? = some slash

/-- `singleJoiningSlash`. -/
def singleJoiningSlash (a b : GoString) : GoString :=
  match endsInSlash a, rooted b with
  | true, true => a ++ b.tail
  | false, false => a ++ slash :: b
  | _, _ => a ++ b

/-- `joinURLPath`. -/
def joinURLPath (a b : Url) : GoString × GoString :=
  if a.rawPath = [] ∧ b.rawPath = [] then (singleJoiningSlash a.path b.path, [])
  else
    match endsInSlash a.escapedPath, rooted b.escapedPath with
    | true, true => (a.path ++ b.path.tail, a.escapedPath ++ b.escapedPath.tail)
    | false, false => (a.path ++ slash :: b.path, a.escapedPath ++ slash :: b.escapedPath)
    | _, _ => (a.path ++ b.path, a.escapedPath ++ b.escapedPath)

/-! ## Encoding and decoding -/

theorem shouldEscape_percent : shouldEscape percent = true := by decide +kernel

theorem shouldEscape_slash : shouldEscape slash = false := by decide +kernel

/-- The two digits of a byte are read back. -/
theorem hex_byte (c : UInt8) : ishex (upperhex (c / 16)) = true ∧ ishex (upperhex (c % 16)) = true ∧
    unhex (upperhex (c / 16)) * 16 + unhex (upperhex (c % 16)) = c := by
  have h := forall_byte (p := fun c => ishex (upperhex (c / 16)) && ishex (upperhex (c % 16)) &&
    unhex (upperhex (c / 16)) * 16 + unhex (upperhex (c % 16)) == c) (by decide +kernel) c
  simp only [Bool.and_eq_true, beq_iff_eq] at h
  exact ⟨h.1.1, h.1.2, h.2⟩

theorem unescape_cons_of_ne {c : UInt8} (h : c ≠ percent) (s : GoString) :
    unescape (c :: s) = (unescape s).map (c :: ·) := by
  rw [unescape.eq_def]
  exact if_neg h

theorem unescape_escapeByte (c : UInt8) (s : GoString) :
    unescape (escapeByte c ++ s) = (unescape s).map (c :: ·) := by
  unfold escapeByte
  split
  · obtain ⟨hhigh, hlow, hc⟩ := hex_byte c
    change unescape (percent :: upperhex (c / 16) :: upperhex (c % 16) :: s) = _
    rw [unescape, if_pos rfl]
    simp only [hhigh, hlow, Bool.and_self, if_true, hc]
  · rename_i hplain
    refine unescape_cons_of_ne ?_ s
    rintro rfl
    exact hplain shouldEscape_percent

/-- Decoding undoes the default encoding. -/
theorem unescape_escape (s : GoString) : unescape (escape s) = some s := by
  induction s with
  | nil => rfl
  | cons c s ih =>
    change unescape (escapeByte c ++ escape s) = _
    rw [unescape_escapeByte, ih]
    rfl

/-- However a URL came by its path, what it is sent as decodes to it. -/
theorem unescape_escapedPath (u : Url) : unescape u.escapedPath = some u.path := by
  unfold Url.escapedPath
  split
  · rename_i h
    exact h.2.2
  · split
    · rename_i h
      rw [h]
      decide +kernel
    · exact unescape_escape u.path

/-! ## Slashes -/

theorem upperhex_ne_slash (c : UInt8) : upperhex (c % 16) ≠ slash := by
  have h := forall_byte (p := fun c => upperhex (c % 16) != slash) (by decide +kernel) c
  exact bne_iff_ne.mp h

theorem rooted_unescape {p s : GoString} (hp : rooted p = true) (h : unescape p = some s) :
    rooted s = true := by
  cases p with
  | nil => cases hp
  | cons c rest =>
    have hc : c = slash := Option.some.inj (of_decide_eq_true hp)
    subst hc
    rw [unescape_cons_of_ne (by decide)] at h
    obtain ⟨s', -, rfl⟩ := Option.map_eq_some_iff.mp h
    rfl

theorem rooted_escape {s : GoString} (h : rooted s = true) : rooted (escape s) = true := by
  cases s with
  | nil => cases h
  | cons c rest =>
    have hc : c = slash := Option.some.inj (of_decide_eq_true h)
    subst hc
    change rooted (escapeByte slash ++ escape rest) = true
    rw [escapeByte, if_neg (by rw [shouldEscape_slash]; exact Bool.false_ne_true)]
    rfl

theorem endsInSlash_escape (s : GoString) : endsInSlash (escape s) = endsInSlash s := by
  rcases eq_nil_or_concat' s with rfl | ⟨init, c, rfl⟩
  · rfl
  · have hescape : escape (init ++ [c]) = escape init ++ escapeByte c := by
      simp only [escape, flatMap_append, flatMap_cons, flatMap_nil, append_nil]
    unfold endsInSlash
    rw [hescape, getLast?_concat]
    unfold escapeByte
    split
    · rename_i hc
      have hne : c ≠ slash := by
        rintro rfl
        rw [shouldEscape_slash] at hc
        cases hc
      rw [getLast?_append]
      simp [upperhex_ne_slash, hne]
    · rw [getLast?_concat]

/-- Whether `EscapedPath` ends in a slash when there is no other encoding. -/
theorem endsInSlash_escapedPath {u : Url} (h : u.rawPath = []) :
    endsInSlash u.escapedPath = endsInSlash u.path := by
  unfold Url.escapedPath
  rw [if_neg fun hc => hc.1 h]
  split
  · rename_i hstar
    rw [hstar]
  · exact endsInSlash_escape u.path

/-- The base path of a URL followed by a rooted path, with one slash between them. -/
def Url.joined (base : Url) (p : GoString) : GoString :=
  if endsInSlash base.escapedPath then base.path ++ p.tail else base.path ++ p

/-- What `joinURLPath` makes of a rooted path. -/
theorem joinURLPath_fst {a b : Url} (hb : rooted b.path = true)
    (hraw : b.rawPath ≠ [] → rooted b.rawPath = true) : (joinURLPath a b).1 = a.joined b.path := by
  have hescaped : rooted b.escapedPath = true := by
    unfold Url.escapedPath
    split
    · rename_i h
      exact hraw h.1
    · split
      · rename_i hstar
        rw [hstar] at hb
        exact absurd hb (by decide +kernel)
      · exact rooted_escape hb
  unfold joinURLPath Url.joined
  split
  · rename_i hempty
    rw [endsInSlash_escapedPath hempty.1]
    unfold singleJoiningSlash
    rw [hb]
    cases endsInSlash a.path <;> rfl
  · rw [hescaped]
    cases endsInSlash a.escapedPath <;> rfl

end Lemul.UrlPath
