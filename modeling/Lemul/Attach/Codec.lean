import Lemul.Misc.JsonText
import Lemul.Misc.TextFields
import Lemul.Tunnel.Events

/-!
# Codecs

Two instances of `encoding/json` for concrete runs. `plain` writes a value of an attach stream as
its list of fields, each behind its length. `wireEvents` writes the events and their envelopes as
`encoding/json` does, and reads those texts. Both read back what they write (`plain_lawful`,
`wireEvents_lawful`), which is what the request of an attach and the envelopes of the events ask
for.
-/

namespace Lemul.Attach

/-- A number below `2 ^ 16`, if a field is one. -/
def readUint16 (s : GoString) : Option UInt16 := (atoi s).map fun n => UInt16.ofNat n.toNat

def writeUint16 (n : UInt16) : GoString := decimal n.toNat

def writeBool (b : Bool) : GoString := if b then "true" else "false"

/-- The fields of a value. -/
def bodyFields : Body → List GoString
  | .attach m =>
      [m.sessionID, writeUint16 m.rows, writeUint16 m.cols, m.mode, writeBool m.create, m.term]
  | .attachOK m => [m.sessionID, writeBool m.created]
  | .error message => [message]
  | .resize m => [writeUint16 m.rows, writeUint16 m.cols]
  | .event name => ["event", name]

def plainAttach (s : GoString) : Except GoString Attach :=
  match readFields 6 s with
  | some [sessionID, rows, cols, mode, create, term] =>
      match readUint16 rows, readUint16 cols with
      | some rows, some cols => .ok ⟨sessionID, rows, cols, mode, create = "true", term⟩
      | _, _ => .error "bad number"
  | _ => .error "bad fields"

def plainResize (s : GoString) : Except GoString Resize :=
  match readFields 2 s with
  | some [rows, cols] =>
      match readUint16 rows, readUint16 cols with
      | some rows, some cols => .ok ⟨rows, cols⟩
      | _, _ => .error "bad number"
  | _ => .error "bad fields"

/-- Values as lists of fields. -/
def plain : Json where
  marshal body := textFields (bodyFields body)
  marshalEnvelope env := textFields [env.type, env.body]
  unmarshalEnvelope s :=
    match readFields 2 s with
    | some [type, body] => .ok ⟨type, body⟩
    | _ => .error "bad fields"
  unmarshalAttach := plainAttach
  unmarshalError s :=
    match readFields 1 s with
    | some [message] => .ok message
    | _ => .error "bad fields"
  unmarshalResize := plainResize
  unmarshalControl s :=
    match readFields 3 s with
    | some [type, rows, cols] =>
        match readUint16 rows, readUint16 cols with
        | some rows, some cols => .ok ⟨type, rows, cols⟩
        | _, _ => .error "bad number"
    | _ => .error "bad fields"

theorem readUint16_writeUint16 (n : UInt16) : readUint16 (writeUint16 n) = some n := by
  have hn : n.toNat < 2 ^ 63 := Nat.lt_trans n.toNat_lt (by decide)
  rw [readUint16, writeUint16, atoi_decimal hn, Option.map_some, Int.toNat_natCast,
    UInt16.ofNat_toNat]

theorem writeBool_eq_true {b : Bool} : writeBool b = "true" ↔ b = true := by
  cases b <;> decide

theorem plainAttach_marshal {m : Attach} (h : FitsInt (plain.marshal (.attach m))) :
    plainAttach (plain.marshal (.attach m)) = .ok m := by
  have hfields : readFields 6 (plain.marshal (.attach m)) = some (bodyFields (.attach m)) :=
    readFields_textFields (fun f hf => Nat.lt_of_le_of_lt (length_le_textFields hf) h)
      (Nat.le_refl 6)
  simp only [plainAttach, hfields, bodyFields, readUint16_writeUint16, writeBool_eq_true,
    Bool.decide_eq_true]

theorem plain_envelope (m : Attach) :
    plain.envelope msgAttach (.attach m) =
      textFields [msgAttach, plain.marshal (.attach m)] := by
  simp only [Json.envelope, plain]

theorem plain_lawful : plain.Lawful where
  attach m _ _ _ hfits := by
    rw [plain_envelope] at hfits ⊢
    have hfield : ∀ f ∈ [msgAttach, plain.marshal (.attach m)], FitsInt f :=
      fun f hf => Nat.lt_of_le_of_lt (length_le_textFields hf) hfits
    refine ⟨?_, plainAttach_marshal (hfield _ (by simp)), ?_⟩
    · have hread := readFields_textFields hfield (Nat.le_refl 2)
      simp only [plain] at hread ⊢
      rw [hread]
    · intro hnil
      exact textField_ne_nil _ (List.append_eq_nil_iff.mp hnil).1

/-! ## Events -/

open JsonText List

def activityText (a : SessionActivity) : GoString :=
  object [("session_id", quote a.sessionID), ("attachers", formatInt a.attachers),
    ("output_idle_secs", formatInt a.outputIdleSecs),
    ("model_idle_secs", formatInt a.modelIdleSecs),
    ("tool_idle_secs", formatInt a.toolIdleSecs)]

def modelText (m : PreflightModel) : GoString :=
  object ([(str "role", quote m.role), (str "model_id", quote m.modelID),
    ("required", bool m.required), ("authorization", quote m.authorization),
    ("invocable", bool m.invocable)] ++ omitEmpty "error_code" m.errorCode ++
    omitEmpty "error" m.error ++ omitEmpty "advice" m.advice)

def eventText : Event → GoString
  | .headroom m =>
      object ([(str "workspace_id", quote m.workspaceID),
        (str "mem_free_mb", formatInt m.memFreeMB), (str "mem_limit_mb", formatInt m.memLimitMB),
        (str "sessions", formatInt m.sessions)] ++
        if m.activity = [] then [] else [(str "activity", array (m.activity.map activityText))])
  | .preflight m =>
      object ([(str "workspace_id", quote m.workspaceID)] ++ omitEmpty (str "region") m.region ++
        [(str "checked_at", quote m.checkedAt)] ++
        (if m.skipped then [(str "skipped", str "true")] else []) ++
        [(str "blocking", bool m.blocking)] ++
        if m.models = [] then [] else [(str "models", array (m.models.map modelText))])
  | .sessionExited m =>
      object [(str "workspace_id", quote m.workspaceID), (str "session_id", quote m.sessionID),
        (str "exit_code", formatInt m.exitCode)]

/-- What is read off the front of a text, and the rest of it. -/
abbrev Reader := StateT GoString Option

def literal (t : GoString) : Reader Unit := fun s =>
  if t.isPrefixOf s then some ((), s.drop t.length) else none

/-- The rest of an ASCII string. Behind a backslash stands the text of one byte. -/
def unquoted : Nat → Reader GoString
  | fuel + 1, b :: s =>
      if b = 34 then some ([], s)
      else if b = 92 then do
        let c ← (range 128).find? fun c => (escapeByte (UInt8.ofNat c)).isPrefixOf (b :: s)
        let (cs, s) ← unquoted fuel ((b :: s).drop (escapeByte (UInt8.ofNat c)).length)
        some (UInt8.ofNat c :: cs, s)
      else (unquoted fuel s).map fun x => (b :: x.1, x.2)
  | _, _ => none

def string : Reader GoString := do
  literal [34]
  fun s => unquoted s.length s

def number : Reader Int := fun s =>
  let digits := s.takeWhile fun b => isDigit b || b = 45
  (atoi digits).map fun n => (n, s.drop digits.length)

def boolean : Reader Bool :=
  (literal "true" *> pure true) <|> (literal "false" *> pure false)

/-- A field behind the brace or the comma `c`. -/
def field {α : Type} (c : UInt8) (name : GoString) (value : Reader α) : Reader α := do
  literal (c :: member (name, []))
  value

/-- A field that is left out where it is zero. -/
def fieldOr {α : Type} (zero : α) (name : GoString) (value : Reader α) : Reader α :=
  field 44 name value <|> pure zero

/-- The elements of an array, behind the bracket or the comma `c`. -/
def elements {α : Type} (c : UInt8) (value : Reader α) : Nat → Reader (List α)
  | 0 => failure
  | fuel + 1 => do
      literal [c]
      let x ← value
      (literal [93] *> pure [x]) <|> (return x :: (← elements 44 value fuel))

def readArray {α : Type} (value : Reader α) : Reader (List α) := fun s =>
  elements 91 value s.length s

def readActivity : Reader SessionActivity := do
  let sessionID ← field 123 "session_id" string
  let attachers ← field 44 "attachers" number
  let output ← field 44 "output_idle_secs" number
  let model ← field 44 "model_idle_secs" number
  let tool ← field 44 "tool_idle_secs" number
  literal [125]
  return ⟨sessionID, attachers, output, model, tool⟩

def readHeadroom : Reader Headroom := do
  let workspaceID ← field 123 "workspace_id" string
  let free ← field 44 "mem_free_mb" number
  let limit ← field 44 "mem_limit_mb" number
  let sessions ← field 44 "sessions" number
  let activity ← fieldOr [] "activity" (readArray readActivity)
  literal [125]
  return ⟨workspaceID, free, limit, sessions, activity⟩

def readModel : Reader PreflightModel := do
  let role ← field 123 "role" string
  let modelID ← field 44 "model_id" string
  let required ← field 44 "required" boolean
  let authorization ← field 44 "authorization" string
  let invocable ← field 44 "invocable" boolean
  let errorCode ← fieldOr [] "error_code" string
  let error ← fieldOr [] "error" string
  let advice ← fieldOr [] "advice" string
  literal [125]
  return ⟨role, modelID, required, authorization, invocable, errorCode, error, advice⟩

def readPreflight : Reader PreflightReport := do
  let workspaceID ← field 123 "workspace_id" string
  let region ← fieldOr [] "region" string
  let checkedAt ← field 44 "checked_at" string
  let skipped ← fieldOr false "skipped" boolean
  let blocking ← field 44 "blocking" boolean
  let models ← fieldOr [] "models" (readArray readModel)
  literal [125]
  return ⟨workspaceID, region, checkedAt, skipped, blocking, models⟩

/-- The body is what stands before the last brace. -/
def readEnvelope : Reader Envelope := do
  let type ← field 123 "type" (literal [34] *> cut 34)
  let body ← field 44 "body" fun s => some (s.dropLast, s.drop (s.length - 1))
  literal [125]
  return ⟨type, body⟩

/-- The whole text is one value. The error is that of a text with a control character in front. -/
def unmarshal {α : Type} (read : Reader α) (s : GoString) : Except GoString α :=
  match read s, s with
  | some (x, []), _ => .ok x
  | _, [] => .error "unexpected end of JSON input"
  | _, b :: _ =>
      .error ("invalid character '\\x" ++ [hexDigit (b.toNat / 16), hexDigit (b.toNat % 16)] ++
        "' looking for beginning of value")

/-- Events and their envelopes as JSON text. -/
def wireEvents : EventJson where
  toJson := { plain with
    marshalEnvelope := fun env => object [("type", quote env.type), ("body", env.body)]
    unmarshalEnvelope := unmarshal readEnvelope }
  marshalEvent := eventText
  unmarshalHeadroom := unmarshal readHeadroom
  unmarshalPreflight := unmarshal readPreflight

section Reading

variable {α β : Type} {read : Reader α} {s r : GoString}

theorem read_bind {x : α} (h : read s = some (x, r)) (f : α → Reader β) :
    (read >>= f) s = f x r := by
  show (read s).bind _ = _
  rw [h]
  rfl

theorem literal_append (t s : GoString) : literal t (t ++ s) = some ((), s) := by
  have hprefix : t.isPrefixOf (t ++ s) = true :=
    isPrefixOf_iff_prefix.mpr (prefix_append t s)
  rw [literal, if_pos hprefix, drop_left]

theorem field_append {c : UInt8} {name : GoString} :
    field c name read ((c :: member (name, [])) ++ s) = read s :=
  read_bind (literal_append _ _) _

end Reading

theorem wireEvents_lawful : wireEvents.Lawful := by
  intro ev _
  have hquote : quote ev.typ = 34 :: (ev.typ ++ [34]) := by cases ev <;> rfl
  have hplain : 34 ∉ ev.typ := by cases ev <;> simp only [Event.typ] <;> decide
  have htext : object [("type", quote ev.typ), ("body", eventText ev)] =
      (123 :: member ("type", [])) ++ ([34] ++ (ev.typ ++ 34 ::
        ((44 :: member ("body", [])) ++ (eventText ev ++ [125])))) := by
    simp [object, member, hquote, intercalate]
  have htype : ∀ s, (literal [34] *> cut 34) ([34] ++ (ev.typ ++ 34 :: s)) = some (ev.typ, s) := by
    intro s
    show (literal [34] ([34] ++ _)).bind (fun x => cut 34 x.2) = _
    rw [literal_append]
    exact cut_append hplain
  have hread : readEnvelope (object [("type", quote ev.typ), ("body", eventText ev)]) =
      some (⟨ev.typ, eventText ev⟩, []) := by
    rw [htext, readEnvelope, read_bind (field_append.trans (htype _)),
      read_bind (x := eventText ev) (r := [125]) (field_append.trans (by simp))]
    rfl
  simp only [wireEvents, EventJson.message, unmarshal, hread]

end Lemul.Attach
