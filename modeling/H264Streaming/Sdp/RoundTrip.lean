import H264Streaming.Sdp.Dump

/-! Descriptions that are printed and parsed again.

What is lost is told by the values alone: an empty string is only read back in front of other
empty strings. sdp_parse stores such values in two places, for an origin without a username
and for a media description without a type. -/

set_option autoImplicit false

namespace H264Streaming.Sdp

open H264Streaming.Bytes

/-! ### Printable values -/

def SdpOrigin.Printable (origin : SdpOrigin) : Prop :=
  Readable 32 [] [.s, .l, .l, .s, .s, .s]
    (origin.username, origin.sessId, origin.sessVersion, origin.nettype, origin.addrtype, origin.addr, ())

def SdpConnection.Printable (conn : SdpConnection) : Prop :=
  Readable 32 [] [.s, .s, .s] (conn.nettype, conn.addrtype, conn.address, ())

def SdpBandwidth.Printable (bw : SdpBandwidth) : Prop := Readable 58 [] [.s, .s] (bw.bwtype, bw.bandwidth, ())

def SdpRepeat.Printable (rf : SdpRepeat) : Prop :=
  IsLong rf.interval ∧ IsLong rf.duration ∧ ∀ offset ∈ rf.offsets, IsLong offset

def SdpTime.Printable (time : SdpTime) : Prop :=
  IsLong time.startTime ∧ IsLong time.stopTime ∧ ∀ rf ∈ time.repeats, rf.Printable

def SdpZoneAdjustments.Printable (za : SdpZoneAdjustments) : Prop := IsLong za.adjust ∧ IsLong za.offset

structure SdpInfo.Printable (info : SdpInfo) : Prop where
  typed : info.type ≠ []
  type : ∀ octet ∈ info.type, octet ≠ 32
  port : IsInt info.port
  portN : IsInt info.portN
  proto : ∀ octet ∈ info.proto, octet ≠ 32
  last : info.proto = [] → info.fmt = []
  fmt : ∀ fmt ∈ info.fmt, IsInt fmt

structure SdpMedia.Printable (media : SdpMedia) : Prop where
  info : media.info.Printable
  conn : ∀ conn ∈ media.conn, conn.Printable
  bw : ∀ bw ∈ media.bw, bw.Printable

/-- Values that their lines give back, on lines that are one. -/
structure SdpPayload.Printable (sdp : SdpPayload) : Prop where
  version : sdp.protoVersion = 0
  origin : sdp.origin.Printable
  conn : ∀ conn ∈ sdp.conn, conn.Printable
  bw : ∀ bw ∈ sdp.bw, bw.Printable
  timed : sdp.times ≠ []
  times : ∀ time ∈ sdp.times, time.Printable
  zoneAdjustments : ∀ za ∈ sdp.zoneAdjustments, za.Printable
  medias : ∀ media ∈ sdp.medias, media.Printable
  lines : ∀ entry ∈ sdp.lines, OneLine entry.octets

/-! ### Values read from their text -/

theorem behind_nil (sep : UInt8) : Behind sep [] := fun _ none => nomatch none

theorem splitValues_print {sep : UInt8} (separator : Separator sep) {fmt : List Conversion} {values : Values fmt}
    (readable : Readable sep [] fmt values) : splitValues sep fmt (printValues sep fmt values) = (values, []) := by
  have split := splitValues_printValues separator (behind_nil sep) readable
  rw [List.append_nil] at split
  exact split

theorem SdpOrigin.Printable.reread {origin : SdpOrigin} (printable : origin.Printable) :
    originValue (originText origin) = origin := by
  rw [originValue, originText, splitValues_print (Or.inl rfl) printable]

theorem SdpConnection.Printable.reread {conn : SdpConnection} (printable : conn.Printable) :
    connectionValue (connectionText conn) = conn := by
  rw [connectionValue, connectionText, splitValues_print (Or.inl rfl) printable]

theorem SdpBandwidth.Printable.reread {bw : SdpBandwidth} (printable : bw.Printable) :
    bandwidthValue (bandwidthText bw) = bw := by
  rw [bandwidthValue, bandwidthText, splitValues_print (Or.inr rfl) printable]

theorem readable_two {sep : UInt8} {tail : List UInt8} {first second : Int} (one : IsLong first) (two : IsLong second) :
    Readable sep tail [.t, .t] (first, second, ()) :=
  ⟨one, fun empty => absurd empty (decimal_filled first), two, fun empty => absurd empty (decimal_filled second), trivial⟩

theorem readable_time {sep : UInt8} {tail : List UInt8} {n : Int} (long : IsLong n) : Readable sep tail [.t] (n, ()) :=
  ⟨long, fun empty => absurd empty (decimal_filled n), trivial⟩

theorem readable_int {sep : UInt8} {tail : List UInt8} {n : Int} (int : IsInt n) : Readable sep tail [.i] (n, ()) :=
  ⟨int, fun empty => absurd empty (decimal_filled n), trivial⟩

theorem SdpRepeat.Printable.reread {rf : SdpRepeat} (printable : rf.Printable) : repeatValue (repeatText rf) = rf := by
  obtain ⟨interval, duration, offsets⟩ := printable
  have all : rf.offsets.flatMap (fun offset => printRest 32 [.t] (offset, ())) =
      (rf.offsets.map fun offset => ((offset, ()) : Values [.t])).flatMap (printRest 32 [.t]) := by
    rw [List.flatMap_map]
  have readable : ∀ values ∈ rf.offsets.map fun offset => ((offset, ()) : Values [.t]), ∀ tail,
      Readable 32 tail [.t] values := by
    intro values member tail
    obtain ⟨offset, among, rfl⟩ := List.mem_map.mp member
    exact readable_time (offsets offset among)
  have behind := behind_flatMap 32 .t [] (rf.offsets.map fun offset => ((offset, ()) : Values [.t]))
  rw [repeatValue, repeatText, all, splitValues_printValues (Or.inl rfl) behind (readable_two interval duration)]
  dsimp only
  rw [splitEach_printed (Or.inl rfl) (by decide) _ readable, List.map_map]
  exact congrArg _ (List.map_id rf.offsets)

theorem SdpTime.Printable.reread {time : SdpTime} (printable : time.Printable) : time.reread = time := by
  obtain ⟨startTime, stopTime, repeats⟩ := printable
  have each : (time.repeats.map repeatText).map repeatValue = time.repeats := by
    rw [List.map_map]
    exact (List.map_congr_left fun rf member => (repeats rf member).reread).trans (List.map_id time.repeats)
  rw [SdpTime.reread, timeFields, timeText, splitValues_print (Or.inl rfl) (readable_two startTime stopTime), each]

theorem zoneText_eq (zas : List SdpZoneAdjustments) :
    zoneText zas = skip 32 (zas.flatMap fun za => printRest 32 [.t, .t] (za.adjust, za.offset, ())) := by
  have start : ∀ za : SdpZoneAdjustments, ∀ rest, skip 32 (printRest 32 [.t, .t] (za.adjust, za.offset, ()) ++ rest) =
      printValues 32 [.t, .t] (za.adjust, za.offset, ()) ++ rest := by
    intro za rest
    rw [printRest, printValues, List.cons_append, skip_cons, List.append_assoc]
    exact skip_decimal (Or.inl rfl) _ _
  cases zas with
  | nil => rfl
  | cons za zas =>
      rw [List.flatMap_cons, start]
      induction zas generalizing za with
      | nil => exact (List.append_nil _).symm
      | cons next zas ih =>
          rw [zoneText, ih next, List.flatMap_cons]
          · rfl
          · exact List.cons_ne_nil next zas

theorem zoneValue_zoneText {zas : List SdpZoneAdjustments} (printable : ∀ za ∈ zas, za.Printable) :
    zoneValue (zoneText zas) = zas := by
  have all : zas.flatMap (fun za => printRest 32 [.t, .t] (za.adjust, za.offset, ())) =
      (zas.map fun za => ((za.adjust, za.offset, ()) : Values [.t, .t])).flatMap (printRest 32 [.t, .t]) := by
    rw [List.flatMap_map]
  have readable : ∀ values ∈ zas.map fun za => ((za.adjust, za.offset, ()) : Values [.t, .t]), ∀ tail,
      Readable 32 tail [.t, .t] values := by
    intro values member tail
    obtain ⟨za, among, rfl⟩ := List.mem_map.mp member
    exact readable_two (printable za among).1 (printable za among).2
  rw [zoneValue, zoneText_eq, all, splitEach_printed (Or.inl rfl) (by decide) _ readable, List.map_map]
  exact List.map_id zas

theorem intValue_decimal {n : Int} (int : IsInt n) {rest : List UInt8} (stop : ∀ octet ∈ rest.head?, isDigit octet = false) :
    intValue (decimal n ++ rest) = (n, rest) := by
  rw [intValue, strtol_decimal int.isLong stop]
  dsimp only
  rw [toInt32_of_isInt int]

theorem portCount_printed {n : Int} (int : IsInt n) {rest : List UInt8} (behind : Behind 32 rest) :
    portCount ((if n ≠ 0 then 47 :: decimal n else []) ++ rest) = (n, rest) := by
  split
  · refine intValue_decimal int fun octet first => ?_
    rw [behind octet first]
    rfl
  · next zero =>
      rw [List.nil_append, not_not.mp zero]
      cases rest with
      | nil => rfl
      | cons octet rest =>
          obtain rfl := behind octet rfl
          rfl

def fmtValues (info : SdpInfo) : List (Values [.i]) := info.fmt.map fun fmt => (fmt, ())

theorem infoText_eq (info : SdpInfo) :
    infoText info = info.type ++ (32 :: (decimal info.port ++ ((if info.portN ≠ 0 then 47 :: decimal info.portN else []) ++
      (printRest 32 [.s] (info.proto, ()) ++ (fmtValues info).flatMap (printRest 32 [.i]))))) := by
  have all : info.fmt.flatMap (fun fmt => printRest 32 [.i] (fmt, ())) = (fmtValues info).flatMap (printRest 32 [.i]) := by
    rw [fmtValues, List.flatMap_map]
  rw [infoText, all]
  simp only [printValues, printRest, Conversion.print, List.append_assoc, List.cons_append, List.nil_append]

theorem SdpInfo.Printable.reread {info : SdpInfo} (printable : info.Printable) : infoValue (infoText info) = info := by
  have behind := behind_flatMap 32 .i [] (fmtValues info)
  have type : ∀ rest, splitValues 32 [.s] (info.type ++ (32 :: (decimal info.port ++ rest))) =
      ((info.type, ()), decimal info.port ++ rest) := by
    intro rest
    have next : Behind 32 (32 :: (decimal info.port ++ rest)) := fun octet same => (Option.some.inj same).symm
    have readable : Readable 32 (32 :: (decimal info.port ++ rest)) [.s] (info.type, ()) :=
      ⟨printable.type, fun empty => absurd empty printable.typed, trivial⟩
    have split := splitValues_printValues (Or.inl rfl) next readable
    rw [skip_cons, skip_decimal (Or.inl rfl)] at split
    rwa [printValues, printRest, List.append_nil] at split
  have port : ∀ octet ∈ ((if info.portN ≠ 0 then 47 :: decimal info.portN else []) ++
      (printRest 32 [.s] (info.proto, ()) ++ (fmtValues info).flatMap (printRest 32 [.i]))).head?, isDigit octet = false := by
    intro octet first
    split at first <;> exact Option.some.inj first ▸ rfl
  have proto : Readable 32 ((fmtValues info).flatMap (printRest 32 [.i])) [.s] (info.proto, ()) := by
    refine ⟨printable.proto, fun empty => ?_, trivial⟩
    rw [fmtValues, printable.last empty]
    rfl
  have ints : ∀ values ∈ fmtValues info, ∀ tail, Readable 32 tail [.i] values := by
    intro values member tail
    obtain ⟨fmt, among, rfl⟩ := List.mem_map.mp member
    exact readable_int (printable.fmt fmt among)
  rw [infoValue, infoText_eq, type]
  dsimp only
  rw [intValue_decimal printable.port port]
  dsimp only
  rw [portCount_printed printable.portN (behind_printRest _ behind)]
  dsimp only
  rw [splitValues_printRest (Or.inl rfl) behind proto]
  dsimp only
  rw [splitEach_printed (Or.inl rfl) (by decide) _ ints, fmtValues, List.map_map]
  exact congrArg _ (List.map_id info.fmt)

theorem map_reread {α : Type} {reread : α → α} {all : List α} (each : ∀ x ∈ all, reread x = x) : all.map reread = all :=
  (List.map_congr_left each).trans (List.map_id all)

theorem conn_reread {conn : Option SdpConnection} (printable : ∀ one ∈ conn, one.Printable) :
    (conn.map connectionText).map connectionValue = conn := by
  cases conn with
  | none => rfl
  | some one => exact congrArg some (printable one rfl).reread

theorem bw_reread {bw : List SdpBandwidth} (printable : ∀ one ∈ bw, one.Printable) :
    (bw.map bandwidthText).map bandwidthValue = bw := by
  rw [List.map_map]
  exact map_reread fun one member => (printable one member).reread

theorem SdpMedia.Printable.reread {media : SdpMedia} (printable : media.Printable) : media.reread = media := by
  rw [SdpMedia.reread, printable.info.reread, conn_reread printable.conn, bw_reread printable.bw]

theorem SdpPayload.Printable.reread {sdp : SdpPayload} (printable : sdp.Printable) : sdp.reread = sdp := by
  have times : sdp.times.map SdpTime.reread = sdp.times := map_reread fun time member => (printable.times time member).reread
  have medias : sdp.medias.map SdpMedia.reread = sdp.medias :=
    map_reread fun media member => (printable.medias media member).reread
  have zone : (if sdp.zoneAdjustments = [] then [] else zoneValue (zoneText sdp.zoneAdjustments)) = sdp.zoneAdjustments := by
    split
    · next none => exact none.symm
    · exact zoneValue_zoneText printable.zoneAdjustments
  rw [SdpPayload.reread, printable.origin.reread, conn_reread printable.conn, bw_reread printable.bw, times, medias, zone,
    ← printable.version]

/-! ### The round trip -/

theorem entries_dump {sdp : SdpPayload} {ending : List UInt8} (ends : LineEnd ending)
    (lines : ∀ entry ∈ sdp.lines, OneLine entry.octets) :
    entries (sdp.lines.flatMap fun entry => entry.octets ++ ending) = sdp.lines := by
  have plain : ∀ line ∈ sdp.lines.map Entry.octets, OneLine line ∧ line ≠ [] := by
    intro line member
    obtain ⟨entry, among, rfl⟩ := List.mem_map.mp member
    exact ⟨lines entry among, List.cons_ne_nil _ _⟩
  have loaded := entries_lines ends plain
  rwa [loadLines_octets, List.flatMap_map] at loaded

/-- A printed description is read back whole. -/
theorem parse_printed {sdp : SdpPayload} (printable : sdp.Printable) {ending : List UInt8} (ends : LineEnd ending) :
    sdpParse (sdp.lines.flatMap fun entry => entry.octets ++ ending) = .accepted sdp := by
  rw [sdpParse, entries_dump ends printable.lines, parseEntries_lines printable.version printable.timed, printable.reread]

def camera : SdpPayload where
  protoVersion := 0
  origin := ⟨ascii "-", 9223372036854775807, 1, ascii "IN", ascii "IP4", ascii "10.0.0.1"⟩
  sessionName := ascii "live"
  information := none
  uri := none
  emails := []
  phones := []
  conn := some ⟨ascii "IN", ascii "IP4", ascii "0.0.0.0"⟩
  bw := [⟨ascii "AS", ascii "512"⟩]
  times := [⟨0, 0, [⟨86400, 3600, [0, -7200]⟩]⟩]
  zoneAdjustments := [⟨2882844526, -3600⟩, ⟨2898848070, 0⟩]
  encryptKey := none
  attributes := [ascii "tool:cam"]
  medias := [⟨⟨ascii "video", 0, 2, ascii "RTP/AVP", [96, 97]⟩, none, none, [], none, [ascii "control:trackID=1"]⟩]

theorem camera_printable : camera.Printable where
  version := rfl
  origin := by
    unfold SdpOrigin.Printable
    decide +kernel
  conn := by
    rintro conn ⟨⟩
    unfold SdpConnection.Printable
    decide +kernel
  bw := by
    unfold SdpBandwidth.Printable
    decide +kernel
  timed := List.cons_ne_nil _ _
  times := by
    unfold SdpTime.Printable SdpRepeat.Printable
    decide +kernel
  zoneAdjustments := by
    unfold SdpZoneAdjustments.Printable
    decide +kernel
  medias := by
    intro media member
    obtain rfl := List.mem_singleton.mp member
    exact ⟨⟨by decide, by decide +kernel, by decide, by decide, by decide +kernel, by decide, by decide +kernel⟩, (fun _ none => nomatch none),
      (fun _ none => nomatch none)⟩
  lines := by decide +kernel

theorem camera_read_back : sdpParse (camera.lines.flatMap fun entry => entry.octets ++ [13, 10]) = .accepted camera :=
  parse_printed camera_printable (Or.inr rfl)

end H264Streaming.Sdp
