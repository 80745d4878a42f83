import H264Streaming.Bytes.Search
import H264Streaming.Bytes.Strtol

/-! The SDP parser of rtsp_client (sdp.c).

The parser cuts a copy of the text into strings by writing zeros behind them and keeps
pointers to these strings. Nothing is written behind the current position, so a string
is the octets it has when its pointer is stored, and the state of a search is the text
from the current position on. -/

set_option autoImplicit false

namespace H264Streaming.Sdp

open H264Streaming.Bytes

abbrev Entry := UInt8 × List UInt8

def isLineEnd (octet : UInt8) : Bool := octet = 13 || octet = 10

/-- The line at the front, up to the first CR LF or, where there is none, the first LF, and the text behind. -/
def nextLine (p : List UInt8) : List UInt8 × List UInt8 :=
  match strstr [13, 10] p with
  | some endl => (p.take (p.length - endl.length), endl)
  | none =>
      match strchr 10 p with
      | some endl => (p.take (p.length - endl.length), endl)
      | none => (p, [])

def lineEntry : List UInt8 → Option Entry
  | key :: 61 :: value => some (key, value)
  | _ => none

def loadNextEntry (p : List UInt8) : Option (Entry × List UInt8) :=
  (lineEntry (nextLine p).1).map fun entry => (entry, (nextLine p).2.dropWhile isLineEnd)

theorem nextLine_append (p : List UInt8) : (nextLine p).1 ++ (nextLine p).2 = p := by
  have cut : ∀ front endl : List UInt8, (front ++ endl).take ((front ++ endl).length - endl.length) ++ endl = front ++ endl := by
    intro front endl
    rw [List.length_append, Nat.add_sub_cancel, List.take_left]
  unfold nextLine
  split
  · next endl found =>
      obtain ⟨front, rfl, -⟩ := strstr_eq_some_iff.mp found
      exact cut front endl
  · split
    · next endl found =>
        obtain ⟨front, rest, rfl, -, rfl⟩ := strchr_eq_some_iff.mp found
        exact cut front _
    · exact List.append_nil p

theorem lineEntry_eq_some_iff {line : List UInt8} {entry : Entry} :
    lineEntry line = some entry ↔ line = entry.1 :: 61 :: entry.2 := by
  unfold lineEntry
  split
  · next key value =>
      rw [Option.some.injEq]
      constructor
      · rintro rfl
        rfl
      · intro same
        cases same
        rfl
  · next other =>
      constructor
      · intro none
        cases none
      · rintro rfl
        exact absurd rfl (other _ _)

theorem loadNextEntry_eq_some_iff {p rest : List UInt8} {entry : Entry} :
    loadNextEntry p = some (entry, rest) ↔
      (nextLine p).1 = entry.1 :: 61 :: entry.2 ∧ rest = (nextLine p).2.dropWhile isLineEnd := by
  unfold loadNextEntry
  rw [Option.map_eq_some_iff]
  constructor
  · rintro ⟨found, line, same⟩
    cases same
    exact ⟨lineEntry_eq_some_iff.mp line, rfl⟩
  · rintro ⟨line, rfl⟩
    exact ⟨entry, lineEntry_eq_some_iff.mpr line, rfl⟩

theorem loadNextEntry_shorter {p rest : List UInt8} {entry : Entry} (loaded : loadNextEntry p = some (entry, rest)) :
    rest.length < p.length := by
  obtain ⟨line, rfl⟩ := loadNextEntry_eq_some_iff.mp loaded
  have parts := congrArg List.length (nextLine_append p)
  have behind := (List.dropWhile_suffix isLineEnd (l := (nextLine p).2)).length_le
  rw [List.length_append, line, List.length_cons, List.length_cons] at parts
  omega

def entries (p : List UInt8) : List Entry :=
  match _loaded : loadNextEntry p with
  | some (entry, rest) => entry :: entries rest
  | none => []
  termination_by p.length
  decreasing_by exact loadNextEntry_shorter _loaded

/-! ### split_values -/

inductive Conversion where
  | s
  | l
  | i
  | t
  deriving DecidableEq

abbrev Conversion.Stored : Conversion → Type
  | .s => List UInt8
  | _ => Int

abbrev Values : List Conversion → Type
  | [] => Unit
  | conversion :: fmt => conversion.Stored × Values fmt

/-- A number, zero where there is none; then the text is cut off there. -/
def number (p : List UInt8) : Int × List UInt8 := (strtol p).getD (0, [])

/-- A product that does not fit a time_t keeps its low 64 bits. -/
def toInt64 (value : Int) : Int := (value + 9223372036854775808) % 18446744073709551616 - 9223372036854775808

def timeValue (p : List UInt8) : Int × List UInt8 :=
  match strtol p with
  | none => (0, [])
  | some (t, 100 :: p) => (toInt64 (t * 86400), p)
  | some (t, 104 :: p) => (toInt64 (t * 3600), p)
  | some (t, 109 :: p) => (toInt64 (t * 60), p)
  | some (t, p) => (t, p)

def convert (sep : UInt8) : (conversion : Conversion) → List UInt8 → conversion.Stored × List UInt8
  | .s, p => (p.takeWhile (· ≠ sep), p.dropWhile (· ≠ sep))
  | .l, p => number p
  | .i, p => (toInt32 (number p).1, (number p).2)
  | .t, p => timeValue p

def skip (sep : UInt8) (p : List UInt8) : List UInt8 := p.dropWhile (· = sep)

def splitLoop (sep : UInt8) : (fmt : List Conversion) → List UInt8 → Values fmt × List UInt8
  | [], p => ((), p)
  | conversion :: fmt, p =>
      let (value, p) := convert sep conversion p
      let (values, p) := splitLoop sep fmt (skip sep p)
      ((value, values), p)

def splitValues (sep : UInt8) (fmt : List Conversion) (p : List UInt8) : Values fmt × List UInt8 :=
  splitLoop sep fmt (skip sep p)

/-! ### The payload -/

structure SdpConnection where
  nettype : List UInt8
  addrtype : List UInt8
  address : List UInt8
  deriving DecidableEq

structure SdpBandwidth where
  bwtype : List UInt8
  bandwidth : List UInt8
  deriving DecidableEq

structure SdpOrigin where
  username : List UInt8
  sessId : Int
  sessVersion : Int
  nettype : List UInt8
  addrtype : List UInt8
  addr : List UInt8
  deriving DecidableEq

structure SdpRepeat where
  interval : Int
  duration : Int
  offsets : List Int
  deriving DecidableEq

structure SdpTime where
  startTime : Int
  stopTime : Int
  repeats : List SdpRepeat
  deriving DecidableEq

structure SdpZoneAdjustments where
  adjust : Int
  offset : Int
  deriving DecidableEq

structure SdpInfo where
  type : List UInt8
  port : Int
  portN : Int
  proto : List UInt8
  fmt : List Int
  deriving DecidableEq

/-- A member that is a null pointer is `none`. -/
structure SdpMedia where
  info : SdpInfo
  title : Option (List UInt8)
  conn : Option SdpConnection
  bw : List SdpBandwidth
  encryptKey : Option (List UInt8)
  attributes : List (List UInt8)
  deriving DecidableEq

structure SdpPayload where
  protoVersion : UInt8
  origin : SdpOrigin
  sessionName : List UInt8
  information : Option (List UInt8)
  uri : Option (List UInt8)
  emails : List (List UInt8)
  phones : List (List UInt8)
  conn : Option SdpConnection
  bw : List SdpBandwidth
  times : List SdpTime
  zoneAdjustments : List SdpZoneAdjustments
  encryptKey : Option (List UInt8)
  attributes : List (List UInt8)
  medias : List SdpMedia
  deriving DecidableEq

/-! ### Values of the lines -/

def originValue (value : List UInt8) : SdpOrigin :=
  let ((username, sessId, sessVersion, nettype, addrtype, addr, ()), _) := splitValues 32 [.s, .l, .l, .s, .s, .s] value
  ⟨username, sessId, sessVersion, nettype, addrtype, addr⟩

def connectionValue (value : List UInt8) : SdpConnection :=
  let ((nettype, addrtype, address, ()), _) := splitValues 32 [.s, .s, .s] value
  ⟨nettype, addrtype, address⟩

def bandwidthValue (value : List UInt8) : SdpBandwidth :=
  let ((bwtype, bandwidth, ()), _) := splitValues 58 [.s, .s] value
  ⟨bwtype, bandwidth⟩

theorem skip_suffix (sep : UInt8) (p : List UInt8) : skip sep p <:+ p := List.dropWhile_suffix _

theorem timeValue_snd (p : List UInt8) : (timeValue p).2 <:+ (number p).2 := by
  unfold timeValue number
  cases read : strtol p with
  | none => exact List.suffix_rfl
  | some found =>
      obtain ⟨t, rest⟩ := found
      split
      · next same => cases same
      · next same => cases same; exact List.suffix_cons _ _
      · next same => cases same; exact List.suffix_cons _ _
      · next same => cases same; exact List.suffix_cons _ _
      · next same => cases same; exact List.suffix_rfl

theorem number_suffix {p : List UInt8} (filled : p ≠ []) : (number p).2 <:+ p ∧ (number p).2.length < p.length := by
  unfold number
  cases read : strtol p with
  | none => exact ⟨List.nil_suffix, List.length_pos_of_ne_nil filled⟩
  | some found => exact strtol_suffix read

theorem convert_suffix {sep first : UInt8} (other : first ≠ sep) (conversion : Conversion) (rest : List UInt8) :
    (convert sep conversion (first :: rest)).2 <:+ first :: rest ∧
      (convert sep conversion (first :: rest)).2.length < (first :: rest).length := by
  have filled : first :: rest ≠ [] := List.cons_ne_nil first rest
  cases conversion with
  | s =>
      have drop : (first :: rest).dropWhile (· ≠ sep) = rest.dropWhile (· ≠ sep) :=
        List.dropWhile_cons_of_pos (decide_eq_true other)
      have behind := List.dropWhile_suffix (· ≠ sep) (l := rest)
      dsimp only [convert]
      rw [drop]
      exact ⟨behind.trans (List.suffix_cons first rest), Nat.lt_succ_of_le behind.length_le⟩
  | l => exact number_suffix filled
  | i => exact number_suffix filled
  | t =>
      obtain ⟨inside, shorter⟩ := number_suffix filled
      have behind := timeValue_snd (first :: rest)
      exact ⟨behind.trans inside, Nat.lt_of_le_of_lt behind.length_le shorter⟩

theorem convert_nil (sep : UInt8) (conversion : Conversion) : (convert sep conversion []).2 = [] := by
  cases conversion <;> rfl

theorem skip_cons_ne {sep first : UInt8} {p rest : List UInt8} (same : skip sep p = first :: rest) : first ≠ sep := by
  have stops := List.head?_dropWhile_not (· = sep) p
  unfold skip at same
  rw [same] at stops
  simpa using stops

theorem convert_skip_suffix (sep : UInt8) (conversion : Conversion) (p : List UInt8) :
    (convert sep conversion (skip sep p)).2 <:+ skip sep p := by
  cases same : skip sep p with
  | nil =>
      have none := convert_nil sep conversion
      exact none.symm ▸ List.suffix_rfl
  | cons first rest => exact (convert_suffix (skip_cons_ne same) conversion rest).1

theorem splitLoop_suffix (sep : UInt8) (fmt : List Conversion) (p : List UInt8) : (splitLoop sep fmt (skip sep p)).2 <:+ p := by
  induction fmt generalizing p with
  | nil => exact skip_suffix sep p
  | cons conversion fmt ih =>
      have converted := (convert_skip_suffix sep conversion p).trans (skip_suffix sep p)
      exact (ih (convert sep conversion (skip sep p)).2).trans converted

theorem splitValues_shorter (sep : UInt8) (conversion : Conversion) (fmt : List Conversion) {p : List UInt8}
    (filled : p ≠ []) : (splitValues sep (conversion :: fmt) p).2.length < p.length := by
  have rest := (splitLoop_suffix sep fmt (convert sep conversion (skip sep p)).2).length_le
  have behind := (skip_suffix sep p).length_le
  refine Nat.lt_of_le_of_lt rest ?_
  cases same : skip sep p with
  | nil =>
      rw [convert_nil]
      exact List.length_pos_of_ne_nil filled
  | cons first more =>
      rw [same] at behind
      exact Nat.lt_of_lt_of_le (convert_suffix (skip_cons_ne same) conversion more).2 behind

/-- `while (*value)` with one call of split_values in its body, which stores an element each time. -/
def splitEach {α : Type} (sep : UInt8) (conversion : Conversion) (fmt : List Conversion)
    (element : Values (conversion :: fmt) → α) (value : List UInt8) : List α :=
  if _filled : value = [] then []
  else
    let split := splitValues sep (conversion :: fmt) value
    element split.1 :: splitEach sep conversion fmt element split.2
  termination_by value.length
  decreasing_by exact splitValues_shorter sep conversion fmt _filled

def repeatValue (value : List UInt8) : SdpRepeat :=
  let ((interval, duration, ()), value) := splitValues 32 [.t, .t] value
  ⟨interval, duration, splitEach 32 .t [] (fun (offset, ()) => offset) value⟩

def zoneValue (value : List UInt8) : List SdpZoneAdjustments :=
  splitEach 32 .t [.t] (fun (adjust, offset, ()) => ⟨adjust, offset⟩) value

/-- `strtol(value, &value, 10)` stored in an int. -/
def intValue (value : List UInt8) : Int × List UInt8 :=
  match strtol value with
  | none => (0, value)
  | some (n, value) => (toInt32 n, value)

def portCount : List UInt8 → Int × List UInt8
  | 47 :: value => intValue value
  | value => (0, value)

def infoValue (value : List UInt8) : SdpInfo :=
  let ((type, ()), value) := splitValues 32 [.s] value
  let (port, value) := intValue value
  let (portN, value) := portCount value
  let ((proto, ()), value) := splitValues 32 [.s] value
  ⟨type, port, portN, proto, splitEach 32 .i [] (fun (fmt, ()) => fmt) value⟩

/-! ### sdp_parse -/

def Entry.hasKey (key : UInt8) (entry : Entry) : Bool := entry.1 = key

def loadFacultativeStr (key : UInt8) : List Entry → Option (List UInt8) × List Entry
  | [] => (none, [])
  | entry :: rest => if entry.hasKey key then (some entry.2, rest) else (none, entry :: rest)

def loadMultipleFacultativeStr (key : UInt8) (entries : List Entry) : List (List UInt8) × List Entry :=
  ((entries.takeWhile (Entry.hasKey key)).map Prod.snd, entries.dropWhile (Entry.hasKey key))

def getConnInfo (entries : List Entry) : Option SdpConnection × List Entry :=
  let (value, entries) := loadFacultativeStr 99 entries
  (value.map connectionValue, entries)

def getBandwidthInfo (entries : List Entry) : List SdpBandwidth × List Entry :=
  let (values, entries) := loadMultipleFacultativeStr 98 entries
  (values.map bandwidthValue, entries)

def timeFields (value : List UInt8) (repeats : List (List UInt8)) : SdpTime :=
  let ((startTime, stopTime, ()), _) := splitValues 32 [.t, .t] value
  ⟨startTime, stopTime, repeats.map repeatValue⟩

def loadTimes (value : List UInt8) (entries : List Entry) : List SdpTime × List Entry :=
  let time := timeFields value (loadMultipleFacultativeStr 114 entries).1
  match _more : (loadMultipleFacultativeStr 114 entries).2 with
  | (116, value) :: later =>
      let (times, rest) := loadTimes value later
      (time :: times, rest)
  | rest => ([time], rest)
  termination_by entries.length
  decreasing_by
    have behind := (List.dropWhile_suffix (Entry.hasKey 114) (l := entries)).length_le
    have shorter := congrArg List.length _more
    rw [List.length_cons, loadMultipleFacultativeStr] at shorter
    dsimp only at shorter
    omega

def loadMedia (value : List UInt8) (entries : List Entry) : SdpMedia × List Entry :=
  let (title, entries) := loadFacultativeStr 105 entries
  let (conn, entries) := getConnInfo entries
  let (bw, entries) := getBandwidthInfo entries
  let (encryptKey, entries) := loadFacultativeStr 107 entries
  let (attributes, entries) := loadMultipleFacultativeStr 97 entries
  (⟨infoValue value, title, conn, bw, encryptKey, attributes⟩, entries)

theorem loadFacultativeStr_suffix (key : UInt8) (entries : List Entry) : (loadFacultativeStr key entries).2 <:+ entries := by
  unfold loadFacultativeStr
  split
  · exact List.suffix_rfl
  · split
    · exact List.suffix_cons _ _
    · exact List.suffix_rfl

theorem loadMedia_suffix (value : List UInt8) (entries : List Entry) : (loadMedia value entries).2 <:+ entries := by
  unfold loadMedia getConnInfo getBandwidthInfo loadMultipleFacultativeStr
  dsimp only
  refine (List.dropWhile_suffix _).trans ((loadFacultativeStr_suffix _ _).trans ((List.dropWhile_suffix _).trans ?_))
  exact (loadFacultativeStr_suffix _ _).trans (loadFacultativeStr_suffix _ _)

def loadMedias : List Entry → List SdpMedia
  | (109, value) :: entries =>
      let loaded := loadMedia value entries
      loaded.1 :: loadMedias loaded.2
  | _ => []
  termination_by entries => entries.length
  decreasing_by exact Nat.lt_succ_of_le (loadMedia_suffix value entries).length_le

inductive Parsed where
  /-- It returns NULL. -/
  | rejected
  /-- split_values is called with a null pointer. -/
  | nullRead
  | accepted (sdp : SdpPayload)
  deriving DecidableEq

/-- sdp_parse from the time fields on. -/
def parseRest (head : SdpPayload) : List Entry → Parsed
  | [] => .nullRead
  | (_, value) :: entries =>
      let (times, entries) := loadTimes value entries
      let (zones, entries) := loadFacultativeStr 122 entries
      let (encryptKey, entries) := loadFacultativeStr 107 entries
      let (attributes, entries) := loadMultipleFacultativeStr 97 entries
      .accepted { head with
        times, encryptKey, attributes
        zoneAdjustments := (zones.map zoneValue).getD []
        medias := loadMedias entries }

/-- The fields in front of the time fields, behind the mandatory ones. -/
def loadHead (origin : SdpOrigin) (sessionName : List UInt8) (entries : List Entry) : SdpPayload × List Entry :=
  let (information, entries) := loadFacultativeStr 105 entries
  let (uri, entries) := loadFacultativeStr 117 entries
  let (emails, entries) := loadMultipleFacultativeStr 101 entries
  let (phones, entries) := loadMultipleFacultativeStr 112 entries
  let (conn, entries) := getConnInfo entries
  let (bw, entries) := getBandwidthInfo entries
  (⟨0, origin, sessionName, information, uri, emails, phones, conn, bw, [], [], none, [], []⟩, entries)

def parseEntries : List Entry → Parsed
  | (118, version) :: (111, origin) :: (115, sessionName) :: entries =>
      -- value[0] - '0' has to be zero, and value[1] the terminator
      if version = [48] then
        let (head, entries) := loadHead (originValue origin) sessionName entries
        parseRest head entries
      else .rejected
  | _ => .rejected

def sdpParse (payload : List UInt8) : Parsed := parseEntries (entries payload)

end H264Streaming.Sdp
