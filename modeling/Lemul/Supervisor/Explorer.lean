import Lemul.Misc.JsonText
import Lemul.Misc.Lists
import Lemul.Misc.TextFields
import Lemul.Supervisor.Procfs
import Lemul.Tunnel.Envelope

/-!
# Explorer replies

`handleListDir` and `handleListProcesses` (`internal/supervisor/supervisor.go:797-874`) from where
the directory or the process table has been read, and a client that reads a directory page by
page. A reply is one frame, and a page is bounded by the number of its entries and not by their
size: what does not fit a frame is not sent. Offsets count the entries of the directory, while a
page holds those that could be looked at.
-/

namespace Lemul.Supervisor.Explorer

open List JsonText

/-- What `os.Lstat` found, with mode and time as they are printed. -/
structure FileInfo where
  isDir : Bool
  size : Int
  mode : GoString
  modTime : GoString
  isSymlink : Bool
  deriving DecidableEq, Repr

/-- `DirEntry` (`messages.go:333-340`). -/
structure DirEntry extends FileInfo where
  name : GoString
  deriving DecidableEq, Repr

/-- `DirListing` (`messages.go:344-351`). -/
structure DirListing where
  path : GoString
  entries : List DirEntry
  total : Nat
  truncated : Bool
  deriving DecidableEq, Repr

/-- A directory as `os.ReadDir` lists it, with what `os.Lstat` returns for each name. -/
abbrev Directory := List (GoString × Option FileInfo)

/-- `maxDirEntries` (`supervisor.go:801`). -/
def maxDirEntries : Nat := 1000

/-- The limit in force (`supervisor.go:832-835`). -/
def pageLimit (limit : Int) : Nat :=
  if limit ≤ 0 ∨ (maxDirEntries : Int) < limit then maxDirEntries else limit.toNat

def entryOf (e : GoString × Option FileInfo) : Option DirEntry :=
  e.2.map fun fi => { fi with name := e.1 }

/-- The loop of `handleListDir` (`supervisor.go:837-854`) over the entries from the offset on. -/
def collect (limit : Nat) : Directory → List DirEntry → List DirEntry
  | [], out => out
  | e :: rest, out =>
      if out.length < limit then
        match entryOf e with
        | none => collect limit rest out
        | some entry => collect limit rest (out ++ [entry])
      else out

/-- The reply of `handleListDir` (`supervisor.go:832-855`). A negative offset is an index out of
range, with which the process ends. -/
def listDir (path : GoString) (dir : Directory) (offset limit : Int) : Option DirListing :=
  if offset < 0 then none
  else
    let entries := collect (pageLimit limit) (dir.drop offset.toNat) []
    some ⟨path, entries, dir.length, offset + entries.length < dir.length⟩

def DirEntry.marshal (e : DirEntry) : GoString :=
  object ([(str "name", quote e.name), (str "is_dir", bool e.isDir), (str "size", formatInt e.size),
    (str "mode", quote e.mode), (str "mod_time", quote e.modTime)] ++
    if e.isSymlink then [(str "is_symlink", bool true)] else [])

def DirListing.marshal (l : DirListing) : GoString :=
  object [("path", quote l.path), ("entries", array (l.entries.map DirEntry.marshal)),
    ("total", decimal l.total), ("truncated", bool l.truncated)]

/-- `ProcessInfo` (`messages.go:363-373`). `cpuText` is the text of `CPUSecs`. -/
def marshalProcess (cpuText : Int → GoString) (p : Procfs.ProcInfo) : GoString :=
  object ([(str "pid", formatInt p.pid), (str "ppid", formatInt p.ppid), (str "name", quote p.name),
    ("state", quote p.state), ("rss_kb", formatInt p.rssKB),
    ("cpu_secs", cpuText p.cpuTicks)] ++ omitEmpty "started_at" p.startedAt ++
    omitEmpty "cmdline" p.cmdline ++ omitEmpty "session_id" p.sessionID)

/-- `ProcessList` (`messages.go:356-361`). -/
def marshalProcesses (cpuText : Int → GoString) (procs : List Procfs.ProcInfo)
    (available : Bool) : GoString :=
  object [("processes", array (procs.map (marshalProcess cpuText))),
    ("available", bool available)]

/-- `WriteMsg` (`frame.go:75-89`) of a value that is marshalled to `body`. The body is written
into the envelope as it is: what the second `Marshal` would escape has been escaped. -/
def writeMsg (typ body : GoString) : Except GoString (List GoString) :=
  writeFrame frameControl (object [("type", quote typ), ("body", body)])

/-- What `handleListDir` writes. -/
def handleListDir (path : GoString) (dir : Directory) (offset limit : Int) :
    Option (Except GoString (List GoString)) :=
  (listDir path dir offset limit).map fun out => writeMsg msgOK out.marshal

/-- What `handleListProcesses` writes (`supervisor.go:859-874`), with the processes that were read
if `/proc` could be read. -/
def handleListProcesses (cpuText : Int → GoString) (procs : Option (List Procfs.ProcInfo))
    (sessionPIDs : List (GoString × Int)) : Except GoString (List GoString) :=
  match procs with
  | none => writeMsg msgOK (marshalProcesses cpuText [] false)
  | some procs =>
      writeMsg msgOK (marshalProcesses cpuText (Procfs.readProcesses procs sessionPIDs) true)

/-! ## The size of a reply -/

/-- The entries of a page. -/
def page (dir : Directory) (offset : Nat) (limit : Int) : List DirEntry :=
  ((dir.drop offset).filterMap entryOf).take (pageLimit limit)

theorem collect_eq (limit : Nat) (es : Directory) (out : List DirEntry) :
    collect limit es out = out ++ (es.filterMap entryOf).take (limit - out.length) := by
  induction es generalizing out with
  | nil => simp [collect]
  | cons e rest ih =>
    unfold collect
    split
    · rename_i hroom
      cases hentry : entryOf e with
      | none => rw [ih, filterMap_cons_none hentry]
      | some entry =>
        have hleft : limit - out.length = limit - (out.length + 1) + 1 := by omega
        show collect limit rest (out ++ [entry]) = _
        rw [ih, filterMap_cons_some hentry, hleft, take_succ_cons, length_append, length_singleton,
          append_assoc]
        rfl
    · rename_i hfull
      rw [Nat.sub_eq_zero_of_le (Nat.not_lt.mp hfull), take_zero, append_nil]

theorem listDir_eq (path : GoString) (dir : Directory) (offset : Nat) (limit : Int) :
    listDir path dir offset limit = some ⟨path, page dir offset limit, dir.length,
      offset + (page dir offset limit).length < dir.length⟩ := by
  have hoffset : ¬ (offset : Int) < 0 := by omega
  have hcollect : collect (pageLimit limit) (dir.drop offset) [] = page dir offset limit :=
    collect_eq _ _ _
  simp only [listDir, if_neg hoffset, Int.toNat_natCast, hcollect]
  norm_cast

/-- The size of an entry in a reply. -/
def DirEntry.encodedSize (e : DirEntry) : Nat :=
  (escape e.name).length + (bool e.isDir).length + (formatInt e.size).length +
    (escape e.mode).length + (escape e.modTime).length + 53 + if e.isSymlink then 18 else 0

theorem DirEntry.length_marshal (e : DirEntry) : e.marshal.length = e.encodedSize := by
  have hnames : (str "name").length = 4 ∧ (str "is_dir").length = 6 ∧ (str "size").length = 4 ∧
      (str "mode").length = 4 ∧ (str "mod_time").length = 8 := by decide
  obtain ⟨h1, h2, h3, h4, h5⟩ := hnames
  have hlink : ((if e.isSymlink then [(str "is_symlink", bool true)] else []).map
      fun f => f.1.length + f.2.length + 4).sum = if e.isSymlink then 18 else 0 := by
    split <;> rfl
  rw [DirEntry.marshal, length_object (append_ne_nil_of_left_ne_nil (cons_ne_nil _ _) _),
    map_append, sum_append, hlink]
  simp only [map_cons, map_nil, sum_cons, sum_nil, length_quote, h1, h2, h3, h4, h5,
    DirEntry.encodedSize]
  omega

/-- The size of an optional field. -/
def omitEmptySize (name value : GoString) : Nat :=
  if value = [] then 0 else name.length + (escape value).length + 6

theorem length_omitEmpty (name value : GoString) :
    ((omitEmpty name value).map fun f => f.1.length + f.2.length + 4).sum =
      omitEmptySize name value := by
  unfold omitEmpty omitEmptySize
  split
  · rfl
  · simp only [map_cons, map_nil, sum_cons, sum_nil, length_quote]
    omega

/-- The size of a process in a reply. -/
def processSize (cpuText : Int → GoString) (p : Procfs.ProcInfo) : Nat :=
  (formatInt p.pid).length + (formatInt p.ppid).length + (escape p.name).length +
    (escape p.state).length + (formatInt p.rssKB).length + (cpuText p.cpuTicks).length + 59 +
    omitEmptySize "started_at" p.startedAt + omitEmptySize "cmdline" p.cmdline +
    omitEmptySize "session_id" p.sessionID

theorem length_marshalProcess (cpuText : Int → GoString) (p : Procfs.ProcInfo) :
    (marshalProcess cpuText p).length = processSize cpuText p := by
  have hnames : (str "pid").length = 3 ∧ (str "ppid").length = 4 ∧ (str "name").length = 4 ∧
      (str "state").length = 5 ∧ (str "rss_kb").length = 6 ∧ (str "cpu_secs").length = 8 := by
    decide
  obtain ⟨h1, h2, h3, h4, h5, h6⟩ := hnames
  rw [marshalProcess, append_assoc, append_assoc,
    length_object (append_ne_nil_of_left_ne_nil (cons_ne_nil _ _) _), map_append, map_append,
    map_append, sum_append, sum_append, sum_append, length_omitEmpty, length_omitEmpty,
    length_omitEmpty]
  simp only [map_cons, map_nil, sum_cons, sum_nil, length_quote, h1, h2, h3, h4, h5, h6,
    processSize]
  omega

theorem length_envelope (body : GoString) :
    (object [(str "type", quote msgOK), (str "body", body)]).length = body.length + 21 := by
  have hnames : (str "type").length = 4 ∧ (quote msgOK).length = 4 ∧ (str "body").length = 4 := by
    decide
  obtain ⟨h1, h2, h3⟩ := hnames
  rw [length_object (cons_ne_nil _ _)]
  simp only [map_cons, map_nil, sum_cons, sum_nil, h1, h2, h3]
  omega

theorem writeMsg_iff (body : GoString) :
    (∃ bufs, writeMsg msgOK body = .ok bufs) ↔ body.length + 21 ≤ maxFrame := by
  rw [← length_envelope, ← Nat.not_lt]
  unfold writeMsg writeFrame
  split
  · rename_i hlarge
    exact ⟨nofun, fun hfits => absurd hlarge hfits⟩
  · rename_i hfits
    refine ⟨fun _ => hfits, fun _ => ?_⟩
    split <;> exact ⟨_, rfl⟩

/-- The size of a directory listing in its envelope. -/
def listingSize (path : GoString) (dir : Directory) (offset : Nat) (limit : Int) : Nat :=
  (escape path).length + arraySize ((page dir offset limit).map DirEntry.encodedSize) +
    (decimal dir.length).length +
    (bool (offset + (page dir offset limit).length < dir.length)).length + 65

theorem arraySize_le_listingSize (path : GoString) (dir : Directory) (offset : Nat) (limit : Int) :
    arraySize ((page dir offset limit).map DirEntry.encodedSize) ≤
      listingSize path dir offset limit := by
  unfold listingSize
  omega

/-- The size of a process list in its envelope. -/
def processesSize (cpuText : Int → GoString) (procs : List Procfs.ProcInfo) : Nat :=
  arraySize (procs.map (processSize cpuText)) + 52

theorem length_marshal_listDir (path : GoString) (dir : Directory) (offset : Nat) (limit : Int) :
    ∀ out ∈ listDir path dir offset limit,
      out.marshal.length + 21 = listingSize path dir offset limit := by
  have hnames : (str "path").length = 4 ∧ (str "entries").length = 7 ∧ (str "total").length = 5 ∧
      (str "truncated").length = 9 := by decide
  obtain ⟨h1, h2, h3, h4⟩ := hnames
  rw [listDir_eq]
  rintro out ⟨⟩
  have hsizes : (map DirEntry.marshal (page dir offset limit)).map length =
      (page dir offset limit).map DirEntry.encodedSize := by
    rw [map_map]
    exact map_congr_left fun e _ => e.length_marshal
  rw [DirListing.marshal, length_object (cons_ne_nil _ _)]
  simp only [map_cons, map_nil, sum_cons, sum_nil, length_quote, length_array, hsizes, h1, h2, h3,
    h4, listingSize]
  omega

theorem length_marshalProcesses (cpuText : Int → GoString) (procs : List Procfs.ProcInfo) :
    (marshalProcesses cpuText procs true).length + 21 = processesSize cpuText procs := by
  have hnames : (str "processes").length = 9 ∧ (str "available").length = 9 ∧
      (bool true).length = 4 := by decide
  obtain ⟨h1, h2, h3⟩ := hnames
  have hsizes : (procs.map (marshalProcess cpuText)).map length =
      procs.map (processSize cpuText) := by
    rw [map_map]
    exact map_congr_left fun p _ => length_marshalProcess cpuText p
  rw [marshalProcesses, length_object (cons_ne_nil _ _)]
  simp only [map_cons, map_nil, sum_cons, sum_nil, length_array, hsizes, h1, h2, h3, processesSize]
  omega

theorem handleListDir_iff (path : GoString) (dir : Directory) (offset limit : Int) :
    (∃ bufs, handleListDir path dir offset limit = some (.ok bufs)) ↔
      0 ≤ offset ∧ listingSize path dir offset.toNat limit ≤ maxFrame := by
  by_cases hoffset : offset < 0
  · simp only [handleListDir, listDir, if_pos hoffset]
    exact ⟨nofun, fun h => absurd h.1 (Int.not_le.mpr hoffset)⟩
  · obtain ⟨n, rfl⟩ := Int.eq_ofNat_of_zero_le (Int.not_lt.mp hoffset)
    have hlist := listDir_eq path dir n limit
    have hdelivered := writeMsg_iff (DirListing.marshal ⟨path, page dir n limit, dir.length,
      n + (page dir n limit).length < dir.length⟩)
    rw [length_marshal_listDir path dir n limit _ hlist] at hdelivered
    simp only [handleListDir, hlist, Option.map_some, Option.some.injEq, hdelivered,
      Int.toNat_natCast]
    exact (and_iff_right (Int.natCast_nonneg n)).symm

/-- A listing is delivered exactly if the offset is not negative and the page, written as JSON,
fits a frame; a process list exactly if it fits a frame. -/
theorem explorer_delivered_iff (path : GoString) (dir : Directory) (offset limit : Int)
    (cpuText : Int → GoString) (procs : List Procfs.ProcInfo)
    (sessionPIDs : List (GoString × Int)) :
    ((∃ bufs, handleListDir path dir offset limit = some (.ok bufs)) ↔
      0 ≤ offset ∧ listingSize path dir offset.toNat limit ≤ maxFrame) ∧
    (∃ bufs, handleListProcesses cpuText none sessionPIDs = .ok bufs) ∧
    ((∃ bufs, handleListProcesses cpuText (some procs) sessionPIDs = .ok bufs) ↔
      processesSize cpuText (Procfs.readProcesses procs sessionPIDs) ≤ maxFrame) := by
  refine ⟨handleListDir_iff path dir offset limit, ?_, ?_⟩
  · have hsmall : (marshalProcesses cpuText [] false).length + 21 ≤ maxFrame := by
      show (marshalProcesses (fun _ => []) [] false).length + 21 ≤ maxFrame
      decide +kernel
    exact (writeMsg_iff _).mpr hsmall
  · rw [← length_marshalProcesses]
    exact writeMsg_iff _

def threeDigits (i : Nat) : GoString :=
  [UInt8.ofNat (48 + i / 100), UInt8.ofNat (48 + i / 10 % 10), UInt8.ofNat (48 + i % 10)]

/-- Names of 255 bytes of which all but three are the byte 1, written `\u0001`. -/
def crowdedName (i : Nat) : GoString := replicate 252 1 ++ threeDigits i

def plainFile : FileInfo := ⟨false, 0, "-rw-r--r--", "2026-01-01T00:00:00Z", false⟩

def crowded : Directory := (range 1000).map fun i => (crowdedName i, some plainFile)

theorem page_crowded :
    page crowded 0 0 = (range 1000).map fun i => { plainFile with name := crowdedName i } := by
  have hentries : crowded.filterMap entryOf =
      (range 1000).map fun i => { plainFile with name := crowdedName i } := by
    rw [crowded, filterMap_map, ← filterMap_eq_map]
    rfl
  rw [page, drop_zero, hentries, take_of_length_le]
  rw [length_map, length_range]
  exact Nat.le_refl _

theorem crowdedName_inj {i j : Nat} (hi : i < 1000) (hj : j < 1000)
    (h : crowdedName i = crowdedName j) : i = j := by
  have hdigits := append_cancel_left h
  simp only [threeDigits, cons.injEq, and_true] at hdigits
  obtain ⟨h1, h2, h3⟩ := hdigits
  have h1 := congrArg UInt8.toNat h1
  have h2 := congrArg UInt8.toNat h2
  have h3 := congrArg UInt8.toNat h3
  simp only [UInt8.toNat_ofNat'] at h1 h2 h3
  omega

theorem of_mem_crowdedName {i : Nat} (hi : i < 1000) {b : UInt8} (hb : b ∈ crowdedName i) :
    b = 1 ∨ 48 ≤ b ∧ b ≤ 57 := by
  have hdigit : ∀ d < 10, 48 ≤ UInt8.ofNat (48 + d) ∧ UInt8.ofNat (48 + d) ≤ 57 := by decide
  rcases mem_append.mp hb with hb | hb
  · exact .inl (eq_of_mem_replicate hb)
  · simp only [threeDigits, mem_cons, not_mem_nil, or_false] at hb
    rcases hb with rfl | rfl | rfl
    · exact .inr (hdigit _ (by omega))
    · exact .inr (hdigit _ (by omega))
    · exact .inr (hdigit _ (by omega))

theorem length_escape_crowdedName {i : Nat} (hi : i < 1000) :
    1512 ≤ (escape (crowdedName i)).length := by
  have hones : ((replicate 252 1).flatMap escapeByte).length = 1512 := by decide +kernel
  have hplain : isASCII (crowdedName i) = true := by
    refine all_eq_true.mpr fun b hb => decide_eq_true ?_
    rcases of_mem_crowdedName hi hb with rfl | hdigit
    · decide
    · exact UInt8.lt_of_le_of_lt hdigit.2 (by decide)
  rw [escape_of_isASCII hplain, crowdedName, flatMap_append, length_append, hones]
  exact Nat.le_add_right _ _

/-- A directory of a thousand files whose names are allowed and different: the first page of it
is not delivered. -/
theorem crowded_undelivered : (crowded.map (·.1)).Nodup ∧
    (∀ e ∈ crowded, e.1.length ≤ 255 ∧ (0 : UInt8) ∉ e.1 ∧ (47 : UInt8) ∉ e.1) ∧
    ¬ ∃ bufs, handleListDir "/workspace" crowded 0 0 = some (.ok bufs) := by
  refine ⟨?_, ?_, fun hdelivered => ?_⟩
  · rw [crowded, map_map]
    refine Nodup.map_on (fun i hi j hj h => ?_) nodup_range
    exact crowdedName_inj (mem_range.mp hi) (mem_range.mp hj) h
  · intro e he
    obtain ⟨i, hi, rfl⟩ := mem_map.mp he
    have hbytes : ∀ b ∈ crowdedName i, b = 1 ∨ 48 ≤ b ∧ b ≤ 57 :=
      fun b => of_mem_crowdedName (mem_range.mp hi)
    refine ⟨?_, fun hzero => ?_, fun hslash => ?_⟩
    · rw [crowdedName, length_append, length_replicate]
      exact Nat.le_refl 255
    · exact absurd (hbytes 0 hzero) (by decide)
    · exact absurd (hbytes 47 hslash) (by decide)
  · have hsize := ((handleListDir_iff _ _ _ _).mp hdelivered).2
    have hsizes : ∀ n ∈ (page crowded 0 0).map DirEntry.encodedSize, 1512 ≤ n := by
      rw [page_crowded, map_map]
      intro n hn
      obtain ⟨i, hi, rfl⟩ := mem_map.mp hn
      have hname := length_escape_crowdedName (mem_range.mp hi)
      simp only [Function.comp_apply, DirEntry.encodedSize]
      omega
    have hlarge := length_mul_le_arraySize hsizes
    rw [length_map, page_crowded, length_map, length_range, ← page_crowded] at hlarge
    exact absurd ((hlarge.trans (arraySize_le_listingSize _ _ _ _)).trans hsize) (by decide)

/-! ## Page by page -/

/-- What a client receives. -/
def fetch (path : GoString) (dir : Directory) (limit offset : Int) : Option DirListing :=
  (listDir path dir offset limit).filter fun out => (writeMsg msgOK out.marshal).toBool

/-- A client that asks for page after page, and stops after `fuel` requests. -/
def client (path : GoString) (dir : Directory) (limit : Int) : Nat → Int → Option (List DirEntry)
  | 0, _ => none
  | fuel + 1, offset =>
      match fetch path dir limit offset with
      | none => none
      | some reply =>
          if reply.truncated then
            (client path dir limit fuel (offset + reply.entries.length)).map (reply.entries ++ ·)
          else some reply.entries

/-- The reply to a request for a page fits a frame. -/
def Fits (path : GoString) (dir : Directory) (limit : Int) (offset : Nat) : Prop :=
  listingSize path dir offset limit ≤ maxFrame

/-- The replies fit for the offset and for each full page further. -/
def PagesFit (path : GoString) (dir : Directory) (limit : Int) (offset : Nat) : Prop :=
  ∀ k, k = 0 ∨ offset + k * pageLimit limit < dir.length →
    Fits path dir limit (offset + k * pageLimit limit)

section

variable {path : GoString} {dir : Directory} {limit : Int}

theorem fetch_eq (offset : Nat) (h : Fits path dir limit offset) :
    fetch path dir limit offset = some ⟨path, page dir offset limit, dir.length,
      offset + (page dir offset limit).length < dir.length⟩ := by
  have hlist := listDir_eq path dir offset limit
  have hsize := length_marshal_listDir path dir offset limit _ hlist
  obtain ⟨bufs, hbufs⟩ := (writeMsg_iff _).mpr (hsize.trans_le h)
  rw [fetch, hlist, Option.filter_some, hbufs]
  rfl

theorem fits_of_fetch {offset : Nat} {reply : DirListing}
    (h : fetch path dir limit offset = some reply) : Fits path dir limit offset := by
  have hlist := listDir_eq path dir offset limit
  have hsize := length_marshal_listDir path dir offset limit _ hlist
  rw [fetch, hlist, Option.filter_some] at h
  split at h
  · rename_i hok
    cases hwrite : writeMsg msgOK (DirListing.marshal ⟨path, page dir offset limit, dir.length,
        offset + (page dir offset limit).length < dir.length⟩) with
    | error e =>
      rw [hwrite] at hok
      cases hok
    | ok bufs => exact hsize.symm.trans_le ((writeMsg_iff _).mp ⟨bufs, hwrite⟩)
  · cases h

theorem pagesFit_iff {offset : Nat} : PagesFit path dir limit offset ↔
    Fits path dir limit offset ∧ (offset + pageLimit limit < dir.length →
      PagesFit path dir limit (offset + pageLimit limit)) := by
  have hstep : ∀ k, offset + (k + 1) * pageLimit limit =
      offset + pageLimit limit + k * pageLimit limit := by
    intro k
    rw [Nat.succ_mul]
    omega
  constructor
  · intro h
    have hfirst := h 0 (.inl rfl)
    rw [Nat.zero_mul, Nat.add_zero] at hfirst
    refine ⟨hfirst, fun hmore k hk => ?_⟩
    rw [← hstep] at hk ⊢
    refine h (k + 1) (.inr ?_)
    rcases hk with rfl | hk
    · rwa [Nat.zero_add, Nat.one_mul]
    · exact hk
  · rintro ⟨hfirst, hnext⟩ k hk
    cases k with
    | zero => rwa [Nat.zero_mul, Nat.add_zero]
    | succ k =>
      rw [hstep] at hk ⊢
      have hk := hk.resolve_left (Nat.succ_ne_zero k)
      exact hnext (by omega) k (.inr hk)

/-- One request of the client. -/
theorem client_succ {fuel offset : Nat} {received : List DirEntry}
    (h : client path dir limit (fuel + 1) offset = some received) :
    Fits path dir limit offset ∧
      if offset + (page dir offset limit).length < dir.length then
        ∃ rest, client path dir limit fuel ↑(offset + (page dir offset limit).length) = some rest ∧
          received = page dir offset limit ++ rest
      else received = page dir offset limit := by
  have hfits : Fits path dir limit offset := by
    cases hfetch : fetch path dir limit offset with
    | none => simp [client, hfetch] at h
    | some reply => exact fits_of_fetch hfetch
  refine ⟨hfits, ?_⟩
  simp only [client, fetch_eq offset hfits, decide_eq_true_eq] at h
  split at h
  · rename_i hmore
    obtain ⟨rest, hrest, rfl⟩ := Option.map_eq_some_iff.mp h
    rw [if_pos hmore]
    exact ⟨rest, by exact_mod_cast hrest, rfl⟩
  · rename_i hlast
    rw [if_neg hlast]
    exact (Option.some.inj h).symm

/-- The client stops once it has received as many entries as there are behind the offset. -/
theorem length_client {fuel offset : Nat} {received : List DirEntry}
    (h : client path dir limit fuel offset = some received) :
    dir.length ≤ offset + received.length := by
  induction fuel generalizing offset received with
  | zero => cases h
  | succ fuel ih =>
    obtain ⟨-, hpage⟩ := client_succ h
    split at hpage
    · obtain ⟨rest, hrest, rfl⟩ := hpage
      rw [length_append, ← Nat.add_assoc]
      exact ih hrest
    · rename_i hlast
      rw [hpage]
      omega

theorem pageLimit_pos (limit : Int) : 0 < pageLimit limit := by
  unfold pageLimit
  split
  · decide
  · omega

section

variable (hall : ∀ e ∈ dir, e.2.isSome = true)
include hall

theorem isSome_entryOf : ∀ e ∈ dir, (entryOf e).isSome = true := by
  intro e he
  rw [entryOf, Option.isSome_map]
  exact hall e he

theorem page_eq (offset : Nat) :
    page dir offset limit = ((dir.filterMap entryOf).drop offset).take (pageLimit limit) := by
  rw [page, filterMap_drop_of_isSome offset (isSome_entryOf hall)]

theorem page_length (limit : Int) (offset : Nat) :
    (page dir offset limit).length = min (pageLimit limit) (dir.length - offset) := by
  rw [page_eq hall, length_take, length_drop,
    filterMap_length_eq_length.mpr (isSome_entryOf hall)]

/-- The pages a client asks for have been delivered. -/
theorem pagesFit_of_client {fuel offset : Nat} {received : List DirEntry}
    (h : client path dir limit fuel offset = some received) : PagesFit path dir limit offset := by
  induction fuel generalizing offset received with
  | zero => cases h
  | succ fuel ih =>
    obtain ⟨hfits, hpage⟩ := client_succ h
    refine pagesFit_iff.mpr ⟨hfits, fun hmore => ?_⟩
    have hlen := page_length hall limit offset
    rw [if_pos (by omega)] at hpage
    obtain ⟨rest, hrest, -⟩ := hpage
    have hfull : (page dir offset limit).length = pageLimit limit := by omega
    rw [hfull] at hrest
    exact ih hrest

theorem client_last {fuel offset : Nat} (hfits : Fits path dir limit offset)
    (hlast : dir.length ≤ offset + pageLimit limit) :
    client path dir limit (fuel + 1) offset = some ((dir.filterMap entryOf).drop offset) := by
  have hlen := page_length hall limit offset
  have hstop : ¬ offset + (page dir offset limit).length < dir.length := by omega
  rw [client, fetch_eq offset hfits]
  simp only [decide_eq_true_eq, if_neg hstop]
  rw [page_eq hall, take_of_length_le]
  rw [length_drop, filterMap_length_eq_length.mpr (isSome_entryOf hall)]
  omega

/-- If they all are, the client receives what is behind the offset. -/
theorem client_eq {n offset : Nat} (hn : dir.length - offset ≤ n)
    (hfits : PagesFit path dir limit offset) :
    client path dir limit (n + 1) offset = some ((dir.filterMap entryOf).drop offset) := by
  have hpos := pageLimit_pos limit
  induction n generalizing offset with
  | zero => exact client_last hall (pagesFit_iff.mp hfits).1 (by omega)
  | succ n ih =>
    obtain ⟨hfirst, hnext⟩ := pagesFit_iff.mp hfits
    by_cases hmore : offset + pageLimit limit < dir.length
    · have hrest := ih (by omega) (hnext hmore)
      have hlen := page_length hall limit offset
      have hfull : (page dir offset limit).length = pageLimit limit := by omega
      rw [client, fetch_eq offset hfirst]
      simp only [decide_eq_true_eq, hfull, if_pos hmore]
      rw [← Int.natCast_add, hrest, Option.map_some, page_eq hall, ← drop_drop, take_append_drop]
    · exact client_last hall hfirst (Nat.not_lt.mp hmore)

end

/-- A client receives each entry that can be looked at, and each only once, exactly if every entry
can be looked at and every page that starts at a multiple of the limit fits a frame. -/
theorem paging_complete_iff (path : GoString) (dir : Directory) (limit : Int) :
    (∃ fuel received, client path dir limit fuel 0 = some received ∧
        received.Perm (dir.filterMap entryOf)) ↔
      (∀ e ∈ dir, e.2.isSome = true) ∧ PagesFit path dir limit 0 := by
  constructor
  · rintro ⟨fuel, received, hclient, hperm⟩
    have hbound : dir.length ≤ 0 + received.length := length_client hclient
    rw [Nat.zero_add, hperm.length_eq] at hbound
    have hall : ∀ e ∈ dir, e.2.isSome = true := by
      have hlen := Nat.le_antisymm (length_filterMap_le _ _) hbound
      intro e he
      have hentry := filterMap_length_eq_length.mp hlen e he
      rwa [entryOf, Option.isSome_map] at hentry
    exact ⟨hall, pagesFit_of_client hall hclient⟩
  · rintro ⟨hall, hfits⟩
    exact ⟨_, _, client_eq hall (Nat.le_refl _) hfits, Perm.refl _⟩

end

/-- Where the first of two entries cannot be looked at, the second is received twice; where the
only one cannot, the client asks for the first page for ever. -/
theorem paging_skipped :
    client (str "/workspace") [(str "a", none), (str "b", some plainFile)] 1 2 0 =
      some [{ plainFile with name := str "b" }, { plainFile with name := str "b" }] ∧
    ∀ fuel, client (str "/workspace") [(str "a", none)] 1 fuel 0 = none := by
  refine ⟨by decide +kernel, fun fuel => ?_⟩
  induction fuel with
  | zero => rfl
  | succ fuel ih =>
    have hfetch : fetch (str "/workspace") [(str "a", none)] 1 0 =
        some ⟨str "/workspace", [], 1, true⟩ := by decide +kernel
    rw [client, hfetch]
    show (client (str "/workspace") [(str "a", none)] 1 fuel 0).map ([] ++ ·) = none
    rw [ih, Option.map_none]

end Lemul.Supervisor.Explorer
