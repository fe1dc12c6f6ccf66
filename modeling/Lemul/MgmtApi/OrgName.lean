import Lemul.Misc.TextFields
import Lemul.Misc.Utf8

/-!
# The name of a personal organization

`orgNameFor` (`internal/mgmtapi/identity.go:134-159`) names an organization after the first
component of an email's local part. It splits at characters and capitalises the first byte: where
the first character takes more than one byte, what comes out is not UTF-8.
-/

namespace Lemul.MgmtApi.OrgName

open List JsonText

/-- `strings.FieldsFunc`, with `cur` read of the field it is in. What separates are characters of
one byte, so the bytes tell the fields. -/
def fieldsFunc (sep : UInt8 → Bool) : GoString → GoString → List GoString
  | cur, [] => if cur = [] then [] else [cur]
  | cur, b :: rest =>
      if sep b then
        if cur = [] then fieldsFunc sep [] rest else cur :: fieldsFunc sep [] rest
      else fieldsFunc sep (cur ++ [b]) rest

/-- What `orgNameFor` splits at: `.`, `_`, `-` and `+`. -/
def isSeparator (b : UInt8) : Bool := b = 46 || b = 95 || b = 45 || b = 43

/-- `unicode.ToUpper` of a character of one byte. -/
def upperByte (b : UInt8) : UInt8 := if 97 ≤ b ∧ b ≤ 122 then b - 32 else b

/-- `strings.ToUpper` of a string of one byte. A byte that is no character comes out as U+FFFD. -/
def toUpper (b : UInt8) : GoString := if b < 128 then [upperByte b] else [0xef, 0xbf, 0xbd]

/-- `local` (`identity.go:143-146`). -/
def localPart (email : GoString) : GoString :=
  match cut 64 email with
  | none => email
  | some (before, _) => if before = [] then email else before

/-- `parts` (`identity.go:149-151`). -/
def parts (email : GoString) : List GoString := fieldsFunc isSeparator [] (localPart email)

/-- `orgNameFor` (`identity.go:142-159`). -/
def orgNameFor (email : GoString) : GoString :=
  match parts email with
  | [] => "My Org"
  | first :: _ => (first.take 1).flatMap toUpper ++ first.drop 1 ++ "'s Org"

/-- How many bytes the first character of a string takes. -/
def firstLen : GoString → Nat
  | [] => 0
  | b :: rest => if b < 128 then 1 else ((decodeRune b rest).getD 0) + 1

/-- The name that is meant: the first character in upper case, the others as they are. -/
def properName (upper : GoString → GoString) (email : GoString) : GoString :=
  match parts email with
  | [] => "My Org"
  | first :: _ =>
      upper (first.take (firstLen first)) ++ first.drop (firstLen first) ++ "'s Org"

/-- The first component begins with a character of one byte, if there is one. -/
def PlainFirst (email : GoString) : Prop := ∀ first ∈ (parts email).head?, StartsPlain first

/-- The first field stands between separators. -/
theorem fieldsFunc_first {sep : UInt8 → Bool} {cur s first : GoString} {more : List GoString}
    (h : fieldsFunc sep cur s = first :: more) :
    first ≠ [] ∧ ∃ before after, cur ++ s = before ++ first ++ after ∧
      (∀ c ∈ before, sep c = true) ∧ ∀ c ∈ after.head?, sep c = true := by
  induction s generalizing cur with
  | nil =>
    rw [fieldsFunc] at h
    split at h <;> cases h
    rename_i hcur
    exact ⟨hcur, [], [], by simp, by simp, by simp⟩
  | cons b rest ih =>
    rw [fieldsFunc] at h
    split at h
    · rename_i hb
      split at h
      · rename_i hcur
        obtain ⟨hne, before, after, heq, hbefore, hafter⟩ := ih h
        refine ⟨hne, b :: before, after, ?_, forall_mem_cons.mpr ⟨hb, hbefore⟩, hafter⟩
        rw [nil_append] at heq
        rw [hcur, heq]
        simp
      · rename_i hcur
        cases h
        refine ⟨hcur, [], b :: rest, by simp, by simp, ?_⟩
        rintro c ⟨⟩
        exact hb
    · obtain ⟨hne, before, after, heq, hbefore, hafter⟩ := ih h
      exact ⟨hne, before, after, by simpa using heq, hbefore, hafter⟩

theorem isSeparator_plain {b : UInt8} (h : isSeparator b = true) : b < 128 := by
  simp only [isSeparator, Bool.or_eq_true, decide_eq_true_eq] at h
  rcases h with ((rfl | rfl) | rfl) | rfl <;> decide

/-- An email begins with its local part, and what follows begins with a character of one byte. -/
theorem localPart_rest (email : GoString) :
    ∃ rest, email = localPart email ++ rest ∧ StartsPlain rest := by
  have hself : ∃ rest, email = email ++ rest ∧ StartsPlain rest :=
    ⟨[], (append_nil _).symm, nofun⟩
  unfold localPart
  split
  · exact hself
  · rename_i before after hcut
    split
    · exact hself
    · refine ⟨64 :: after, eq_of_cut hcut, ?_⟩
      rintro c ⟨⟩
      decide

/-- Where the first component of an email stands. -/
theorem first_place {email first : GoString} {more : List GoString}
    (h : parts email = first :: more) :
    first ≠ [] ∧ ∃ before after, email = before ++ (first ++ after) ∧
      (∀ c ∈ before, c < 128) ∧ StartsPlain after := by
  obtain ⟨rest, hemail, hrest⟩ := localPart_rest email
  obtain ⟨hne, before, after, heq, hbefore, hafter⟩ := fieldsFunc_first h
  refine ⟨hne, before, after ++ rest, ?_, fun c hc => isSeparator_plain (hbefore c hc),
    startsPlain_append (fun c hc => isSeparator_plain (hafter c hc)) hrest⟩
  rw [nil_append] at heq
  rw [hemail, heq]
  simp

theorem upperByte_plain {b : UInt8} (h : b < 128) : upperByte b < 128 := by
  unfold upperByte
  split
  · rename_i hlower
    exact UInt8.lt_of_le_of_lt (UInt8.sub_le (UInt8.le_trans (by decide) hlower.1)) h
  · exact h

/-- An organization is given the name that is meant, in UTF-8, exactly if the first character of
the first component takes one byte. -/
theorem orgName_stored_iff {upper : GoString → GoString}
    (hupper : ∀ b : UInt8, b < 128 → upper [b] = [upperByte b]) {email : GoString}
    (hemail : validUTF8 email = true) :
    (validUTF8 (orgNameFor email) = true ∧ orgNameFor email = properName upper email) ↔
      PlainFirst email := by
  unfold PlainFirst orgNameFor properName
  cases hparts : parts email with
  | nil =>
    refine ⟨fun _ => ?_, fun _ => ⟨by decide, rfl⟩⟩
    exact nofun
  | cons first more =>
    obtain ⟨hne, before, after, heq, hbefore, hafter⟩ := first_place hparts
    rw [heq, validUTF8_plain hbefore, validUTF8_append first hafter, Bool.and_eq_true] at hemail
    obtain ⟨b, rest, rfl⟩ := exists_cons_of_ne_nil hne
    by_cases hb : b < 128
    · have hplain : ∀ first' ∈ (some (b :: rest) : Option GoString), StartsPlain first' := by
        rintro first' ⟨⟩ c ⟨⟩
        exact hb
      have hvalid : validUTF8 ((upperByte b :: rest) ++ "'s Org") = true := by
        have hfixed : StartsPlain "'s Org" := by
          rintro c ⟨⟩
          decide
        rw [validUTF8_append _ hfixed, validUTF8_cons_plain (upperByte_plain hb),
          ← validUTF8_cons_plain hb, hemail.1]
        decide
      refine ⟨fun _ => hplain, fun _ => ?_⟩
      simp only [firstLen, take_succ_cons, take_zero, flatMap_cons, flatMap_nil, append_nil,
        drop_succ_cons, drop_zero, toUpper, if_pos hb, hupper b hb, and_true]
      exact hvalid
    · -- the next byte does not begin a character, and U+FFFD before it is complete
      have hfirst := hemail.1
      simp only [validUTF8, validFrom, if_neg hb] at hfirst
      cases hrune : decodeRune b rest with
      | none =>
        rw [hrune] at hfirst
        cases hfirst
      | some n =>
        obtain ⟨-, c, rest', rfl, hlow, hhigh⟩ := decodeRune_eq_some hrune
        have hbroken : validUTF8 (0xef :: 0xbf :: 0xbd :: c :: (rest' ++ "'s Org")) = false := by
          rw [validUTF8_replacement, validUTF8_cons_continuation hlow hhigh]
        refine ⟨fun h => ?_, fun h => absurd (h _ rfl b rfl) hb⟩
        have hname := h.1
        simp only [take_succ_cons, take_zero, flatMap_cons, flatMap_nil, append_nil, toUpper,
          if_neg hb, drop_succ_cons, drop_zero, cons_append, nil_append, hbroken] at hname
        cases hname

/-- `ada.lovelace@example.com` becomes `Ada's Org`. -/
theorem orgName_stored_iff_ada :
    validUTF8 "ada.lovelace@example.com" = true ∧
      orgNameFor "ada.lovelace@example.com" = "Ada's Org" ∧
      ((validUTF8 (orgNameFor "ada.lovelace@example.com") = true ∧
          orgNameFor "ada.lovelace@example.com" =
            properName (·.map upperByte) "ada.lovelace@example.com") ↔
        PlainFirst "ada.lovelace@example.com") :=
  ⟨by decide, by decide,
    orgName_stored_iff (fun _ _ => rfl) (by decide)⟩

/-- `éa@x`: the second byte of `é` is left over behind U+FFFD. -/
theorem orgName_broken :
    validUTF8 (str "éa@x") = true ∧
      orgNameFor (str "éa@x") = [0xef, 0xbf, 0xbd, 0xa9] ++ str "a's Org" ∧
      validUTF8 (orgNameFor "éa@x") = false := by
  decide

end Lemul.MgmtApi.OrgName
