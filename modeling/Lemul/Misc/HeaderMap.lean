import Lemul.Misc.GoString
import Lemul.Misc.Lists

/-!
# HTTP headers

`net/http.Header`: a map from canonical names to values, here as a list of its entries. Names
differ in capitalization only if they are the same name, and `CanonicalMIMEHeaderKey` brings
every name that is a token to one capitalization. A server answers a request with a name that
is not a token with an error.
-/

namespace Lemul.HeaderMap

open List

def isUpper (c : UInt8) : Bool := 65 ≤ c && c ≤ 90

def isLower (c : UInt8) : Bool := 97 ≤ c && c ≤ 122

def toLower (c : UInt8) : UInt8 := if isUpper c then c + 32 else c

def toUpper (c : UInt8) : UInt8 := if isLower c then c - 32 else c

/-- A byte that a header name may have. -/
def isToken (c : UInt8) : Bool :=
  isUpper c || isLower c || (48 ≤ c && c ≤ 57) || (str "!#$%&'*+-.^_|~").contains c || c == 96

/-- The name without its capitalization. -/
def fold (name : GoString) : GoString := name.map toLower

/-- Upper case at the beginning and after every dash, lower case elsewhere. -/
def canonicalFrom : Bool → GoString → GoString
  | _, [] => []
  | upper, c :: rest =>
      let c' := if upper then toUpper c else toLower c
      c' :: canonicalFrom (c' = 45) rest

/-- `CanonicalMIMEHeaderKey`. -/
def canonical (name : GoString) : GoString :=
  if name.all isToken then canonicalFrom true name else name

/-- A name that a header may have. -/
abbrev Token := { name : GoString // name.all isToken = true }

/-- A header: its entries, each with the name in canonical form. -/
structure Header where
  entries : List (GoString × GoString)
  canonical : ∀ e ∈ entries, ∃ name : Token, e.1 = canonical name

namespace Header

/-- What a server has read, if every name is a token. -/
def read (fields : List (GoString × GoString)) : Option Header :=
  if h : ∀ f ∈ fields, f.1.all isToken = true then
    some ⟨fields.map fun f => (HeaderMap.canonical f.1, f.2), by
      intro e he
      obtain ⟨f, hf, rfl⟩ := mem_map.mp he
      exact ⟨⟨f.1, h f hf⟩, rfl⟩⟩
  else none

/-- `Header[name]`, the values of a name. -/
def values (h : Header) (name : GoString) : List GoString :=
  (h.entries.filter fun e => e.1 = HeaderMap.canonical name).map (·.2)

/-- `Del`. -/
def del (h : Header) (name : GoString) : Header :=
  ⟨h.entries.filter fun e => e.1 ≠ HeaderMap.canonical name,
    fun e he => h.canonical e (mem_filter.mp he).1⟩

/-- `Set`. -/
def set (h : Header) (name : Token) (value : GoString) : Header :=
  ⟨(h.del name).entries ++ [(HeaderMap.canonical name, value)], by
    intro e he
    rcases mem_concat.mp he with he | rfl
    · exact (h.del name).canonical e he
    · exact ⟨name, rfl⟩⟩

/-- The values of every entry that bears the name in some capitalization. -/
def valuesOf (h : Header) (name : GoString) : List GoString :=
  (h.entries.filter fun e => fold e.1 = fold name).map (·.2)

end Header

/-! ## Capitalization -/

theorem toUpper_toLower (c : UInt8) : toUpper (toLower c) = toUpper c := by
  have h := forall_byte (p := fun c => toUpper (toLower c) == toUpper c) (by decide +kernel) c
  exact beq_iff_eq.mp h

theorem toLower_toUpper (c : UInt8) : toLower (toUpper c) = toLower c := by
  have h := forall_byte (p := fun c => toLower (toUpper c) == toLower c) (by decide +kernel) c
  exact beq_iff_eq.mp h

theorem toLower_toLower (c : UInt8) : toLower (toLower c) = toLower c := by
  have h := forall_byte (p := fun c => toLower (toLower c) == toLower c) (by decide +kernel) c
  exact beq_iff_eq.mp h

theorem canonicalFrom_fold (upper : Bool) (name : GoString) :
    canonicalFrom upper (fold name) = canonicalFrom upper name := by
  induction name generalizing upper with
  | nil => rfl
  | cons c rest ih =>
    change canonicalFrom upper (toLower c :: fold rest) = _
    have hc : (if upper then toUpper (toLower c) else toLower (toLower c)) =
        if upper then toUpper c else toLower c := by
      rw [toUpper_toLower, toLower_toLower]
    simp only [canonicalFrom, hc, ih]

theorem fold_canonicalFrom (upper : Bool) (name : GoString) :
    fold (canonicalFrom upper name) = fold name := by
  induction name generalizing upper with
  | nil => rfl
  | cons c rest ih =>
    simp only [canonicalFrom, fold, map_cons]
    refine congrArg₂ cons ?_ (ih _)
    split
    · exact toLower_toUpper c
    · exact toLower_toLower c

theorem fold_canonical (name : GoString) : fold (canonical name) = fold name := by
  unfold canonical
  split
  · exact fold_canonicalFrom true name
  · rfl

/-- Canonical names that differ only in capitalization are the same. -/
theorem canonical_eq_iff (a b : Token) : canonical a = canonical b ↔ fold a = fold b := by
  constructor
  · intro h
    rw [← fold_canonical a, h, fold_canonical]
  · intro h
    unfold canonical
    rw [if_pos a.2, if_pos b.2, ← canonicalFrom_fold true a, h, canonicalFrom_fold]

/-! ## Values -/

namespace Header

variable {h : Header} {name other : Token} {value : GoString}

/-- A name has one entry in the map, however it was capitalized. -/
theorem valuesOf_eq_values (h : Header) (name : Token) : h.valuesOf name = h.values name := by
  unfold valuesOf values
  congr 1
  refine filter_congr fun e he => ?_
  obtain ⟨sent, heq⟩ := h.canonical e he
  rw [heq, fold_canonical, decide_eq_decide]
  exact (canonical_eq_iff sent name).symm

@[simp] theorem values_del_self : (h.del name).values name = [] := by
  simp only [values, del, filter_filter, map_eq_nil_iff, filter_eq_nil_iff]
  intro e _
  simp

theorem values_del_of_ne (hne : HeaderMap.canonical other ≠ HeaderMap.canonical name) :
    (h.del other).values name = h.values name := by
  simp only [values, del, filter_filter]
  congr 1
  refine filter_congr fun e _ => ?_
  by_cases he : e.1 = HeaderMap.canonical name
  · simp [he, hne.symm]
  · simp [he]

@[simp] theorem values_set_self : (h.set name value).values name = [value] := by
  have hdel : (h.del name).values name = [] := values_del_self
  simp only [values] at hdel
  simp only [values, set, filter_append, map_append, hdel, nil_append]
  simp

theorem values_set_of_ne (hne : HeaderMap.canonical other ≠ HeaderMap.canonical name) :
    (h.set other value).values name = h.values name := by
  have hdel := values_del_of_ne (h := h) hne
  simp only [values] at hdel
  simp only [values, set, filter_append, map_append, hdel]
  simp [hne]

end Header

end Lemul.HeaderMap
